import PointStream.Proofs.Bounds.Reading
import PointStream.Proofs.Json.Writing

namespace PointStream

namespace Value

mutual

/-- The plain data that a value is written as. -/
def saved : Value → Value
  | .real x => .real x.canonical
  | .list items => .list (savedAll items)
  | .record members => .record (savedMembers members)
  | .bounds b => .text b.text
  | .reference r => .text r.text
  | .mode m => .text m.name
  | .dimensionId d => .text d.id
  | .dimension d => .text d.id
  | v => v

def savedAll : List Value → List Value
  | [] => []
  | v :: vs => saved v :: savedAll vs

def savedMembers : List (String × Value) → List (String × Value)
  | [] => []
  | (key, v) :: members => (key, saved v) :: savedMembers members

end

theorem savedAll_eq (vs : List Value) : savedAll vs = vs.map saved := by
  induction vs with
  | nil => rfl
  | cons v vs ih => rw [savedAll, ih, List.map_cons]

end Value

/-- The options that are written for options. -/
def Options.saved (options : Options) : Options :=
  options.map fun option => (option.1, option.2.saved)

theorem Options.saved_eq_self {options : Options}
    (h : ∀ option ∈ options, option.2.saved = option.2) : options.saved = options := by
  refine (List.map_congr_left fun option hoption => ?_).trans options.map_id
  rw [h option hoption]
  rfl

theorem Value.savedMembers_eq (members : Options) : savedMembers members = members.saved := by
  induction members with
  | nil => rfl
  | cons member members ih =>
      rw [savedMembers, ih]
      rfl

namespace Json

theorem doubleChars_canonical (x : Double) : doubleChars x.canonical = doubleChars x := by
  unfold Double.canonical
  split
  · next h =>
    unfold doubleChars
    rw [if_pos h]
    rfl
  · rfl

mutual

theorem chars_saved : ∀ (v : Value) (spacing : Spacing), chars spacing v.saved = chars spacing v
  | .list [], spacing => rfl
  | .list (v :: vs), spacing => by
      rw [Value.saved, Value.savedAll, chars, chars, chars_saved v, itemChars_saved vs]
  | .record [], spacing => rfl
  | .record ((key, v) :: members), spacing => by
      rw [Value.saved, Value.savedMembers, chars, chars, chars_saved v, memberChars_saved members]
  | .real x, spacing => congrArg Except.ok (doubleChars_canonical x)
  | .null, _ => rfl
  | .truth _, _ => rfl
  | .whole _, _ => rfl
  | .text _, _ => rfl
  | .bounds _, _ => rfl
  | .reference _, _ => rfl
  | .mode _, _ => rfl
  | .dimensionId _, _ => rfl
  | .dimension _, _ => rfl
  | .schema _, _ => rfl
  | .described _ _, _ => rfl

theorem itemChars_saved : ∀ (vs : List Value) (spacing : Spacing),
    itemChars spacing (Value.savedAll vs) = itemChars spacing vs
  | [], _ => rfl
  | v :: vs, spacing => by
      rw [Value.savedAll, itemChars, itemChars, chars_saved v, itemChars_saved vs]

theorem memberChars_saved : ∀ (members : List (String × Value)) (spacing : Spacing),
    memberChars spacing (Value.savedMembers members) = memberChars spacing members
  | [], _ => rfl
  | (key, v) :: members, spacing => by
      rw [Value.savedMembers, memberChars, memberChars, chars_saved v, memberChars_saved members]

end

/-- A value whose saved form is plain data is written, and reads back as that. -/
theorem exists_text_saved {v : Value} (h : v.saved.IsPlain) (spacing : Spacing) :
    ∃ s, text spacing v = .ok s ∧ read? s = some v.saved := by
  obtain ⟨s, htext, hread⟩ := exists_text h spacing
  refine ⟨s, ?_, hread⟩
  rw [← htext, text, text, chars_saved]

end Json

namespace Value

theorem IsPlain.saved_eq {v : Value} (h : v.IsPlain) : v.saved = v := by
  induction h with
  | @real x hnan =>
      rw [saved, Double.canonical]
      split
      · next h => rw [hnan h]
      · rfl
  | @list vs _ ih =>
      rw [saved, savedAll_eq, List.map_congr_left ih, List.map_id']
  | @record members _ _ _ ih =>
      rw [saved, savedMembers_eq, Options.saved_eq_self ih]
  | _ => rfl

mutual

/-- The whole numbers in a value. -/
def wholes : Value → List Int
  | .whole n => [n]
  | .list items => wholesOfAll items
  | .record members => wholesOfMembers members
  | _ => []

def wholesOfAll : List Value → List Int
  | [] => []
  | v :: vs => wholes v ++ wholesOfAll vs

def wholesOfMembers : List (String × Value) → List Int
  | [] => []
  | (_, v) :: members => wholes v ++ wholesOfMembers members

end

/-- The number of digits up to which an interpreter turns whole numbers into texts and back,
where no other limit is set. -/
def digitLimit : Nat :=
  4300

/-- Whether no whole number in a value has more digits than can be relied on. -/
def IsShort (v : Value) : Prop :=
  ∀ n ∈ v.wholes, n.natAbs < 10 ^ digitLimit

instance (v : Value) : Decidable v.IsShort :=
  inferInstanceAs (Decidable (∀ n ∈ v.wholes, n.natAbs < 10 ^ digitLimit))

theorem wholesOfAll_eq (vs : List Value) : wholesOfAll vs = vs.flatMap wholes := by
  induction vs with
  | nil => rfl
  | cons v vs ih => rw [wholesOfAll, ih, List.flatMap_cons]

theorem wholesOfMembers_eq (members : Options) :
    wholesOfMembers members = members.flatMap fun member => wholes member.2 := by
  induction members with
  | nil => rfl
  | cons member members ih => rw [wholesOfMembers, ih, List.flatMap_cons]

theorem isShort_list_iff {vs : List Value} : (list vs).IsShort ↔ ∀ v ∈ vs, v.IsShort := by
  simp only [IsShort, wholes, wholesOfAll_eq, List.mem_flatMap]
  exact ⟨fun h v hv n hn => h n ⟨v, hv, hn⟩, fun h n ⟨v, hv, hn⟩ => h v hv n hn⟩

theorem isShort_record_iff {members : Options} :
    (record members).IsShort ↔ ∀ member ∈ members, member.2.IsShort := by
  simp only [IsShort, wholes, wholesOfMembers_eq, List.mem_flatMap]
  exact ⟨fun h member hmember n hn => h n ⟨member, hmember, hn⟩,
    fun h n ⟨member, hmember, hn⟩ => h member hmember n hn⟩

mutual

theorem wholes_saved : ∀ v : Value, v.saved.wholes = v.wholes
  | .list vs => wholesOfAll_saved vs
  | .record members => wholesOfMembers_saved members
  | .null => rfl
  | .truth _ => rfl
  | .whole _ => rfl
  | .real _ => rfl
  | .text _ => rfl
  | .bounds _ => rfl
  | .reference _ => rfl
  | .mode _ => rfl
  | .dimensionId _ => rfl
  | .dimension _ => rfl
  | .schema _ => rfl
  | .described _ _ => rfl

theorem wholesOfAll_saved : ∀ vs : List Value, wholesOfAll (savedAll vs) = wholesOfAll vs
  | [] => rfl
  | v :: vs => by
      rw [savedAll, wholesOfAll, wholesOfAll, wholes_saved v, wholesOfAll_saved vs]

theorem wholesOfMembers_saved : ∀ members : List (String × Value),
    wholesOfMembers (savedMembers members) = wholesOfMembers members
  | [] => rfl
  | (key, v) :: members => by
      rw [savedMembers, wholesOfMembers, wholesOfMembers, wholes_saved v,
        wholesOfMembers_saved members]

end

theorem isShort_saved_iff {v : Value} : v.saved.IsShort ↔ v.IsShort := by
  rw [IsShort, wholes_saved]
  rfl

end Value

end PointStream

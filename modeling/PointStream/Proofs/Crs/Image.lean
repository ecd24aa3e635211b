import PointStream.Proofs.Stage.Metadata
import Mathlib.Algebra.Order.Field.Rat
import Mathlib.Tactic.GCongr
import Mathlib.Tactic.NormNum

/-!
# Images of points

The local systems can be read over any type of numbers: where a point of one system lies in another
is said by the same units, offsets and limits. Over doubles this is where the backend takes a point.
Over the rational numbers nothing is rounded, and as all units are positive, points keep their order
on every axis.
-/

namespace PointStream

namespace Triple

/-- Whether all three values pass a test. -/
def every {α : Type} (f : α → Bool) (p : Triple α) : Bool :=
  f p.x && f p.y && f p.z

/-- One triple is at most another if it is so on every axis. -/
instance {α : Type} [LE α] : LE (Triple α) :=
  ⟨fun p q => p.x ≤ q.x ∧ p.y ≤ q.y ∧ p.z ≤ q.z⟩

instance {α : Type} [LE α] [DecidableLE α] (p q : Triple α) : Decidable (p ≤ q) :=
  inferInstanceAs (Decidable (p.x ≤ q.x ∧ p.y ≤ q.y ∧ p.z ≤ q.z))

end Triple

namespace Local

section

variable {α : Type} [Add α] [Sub α] [Mul α] [Div α] [Neg α] [LT α] [DecidableLT α]

/-- Where a point of one system lies in another, unless the limit of that one refuses or spoils
it. -/
def image? (source target : Entry α) (p : Triple α) : Option (Triple α) :=
  let base := source.toBase p
  match beyond? target base with
  | some .refused | some .infinite | some .heightLost => none
  | some .rowRefused | none => some (target.fromBase base)

variable [OfScientific α]

/-- The entry that a descriptor names, with numbers of any type. -/
def named? (descriptor : String) : Option (Entry α) :=
  catalogue.find? fun e => e.key == descriptor || fullText e.key == descriptor

/-- A point on its way between the systems that two descriptors name, if it arrives and all its
coordinates count as finite. -/
def point? (isFinite : α → Bool) (source target : String) (p : Triple α) : Option (Triple α) := do
  let a ← named? source
  let z ← named? target
  if a.group = z.group then (image? a z p).filter (Triple.every isFinite) else none

end

theorem find?_of_pairwise {α : Type} {es : List (Entry α)}
    (hes : (es.map Entry.key).Pairwise fun a b => a ≠ b ∧ fullText a ≠ b) {e : Entry α}
    (he : e ∈ es) : es.find? (fun a => a.key == e.key || fullText a.key == e.key) = some e := by
  induction es with
  | nil => cases he
  | cons a es ih =>
      rw [List.map_cons, List.pairwise_cons] at hes
      rcases List.mem_cons.mp he with rfl | he
      · simp
      · obtain ⟨hkey, htext⟩ := hes.1 e.key (List.mem_map_of_mem he)
        simp [hkey, htext, ih hes.2 he]

theorem find?_key {e : Entry Double} (h : e ∈ (catalogue : List (Entry Double))) :
    find? e.key = some e :=
  find?_of_pairwise (by decide +kernel) h

theorem connect_systemOf {a z : Entry Double} (ha : a ∈ (catalogue : List (Entry Double)))
    (hz : z ∈ (catalogue : List (Entry Double))) :
    connect (systemOf a) (systemOf z) =
      if a.group = z.group then
        .ok ⟨transformOne a z, transformMany a z, length_of_transformMany⟩
      else .error "no operation found" := by
  have ha : find? (systemOf a).key = some a := find?_key ha
  have hz : find? (systemOf z).key = some z := find?_key hz
  unfold connect
  rw [ha, hz]

theorem isFinite_of_z {p : Point} (h : p.z.isFinite = false) : p.isFinite = false := by
  rw [Triple.isFinite, h, Bool.and_false]

/-- Where a single point arrives, unless it is refused, is its image where that is finite. -/
theorem transformOne_eq_image? (source target : Entry Double) (p : Point) :
    (transformOne source target p).toOption.filter Triple.isFinite =
      (image? source target p).filter Triple.isFinite := by
  unfold transformOne image? arrive
  dsimp only
  cases beyond? target (source.toBase p) with
  | none => rfl
  | some beyond =>
      cases beyond with
      | refused => rfl
      | infinite => rfl
      | rowRefused => rfl
      | heightLost =>
          have hspoilt : Triple.isFinite
              { target.fromBase (source.toBase p) with z := Double.nan } = false :=
            isFinite_of_z rfl
          exact if_neg (Bool.eq_false_iff.mp hspoilt)

/-- Over doubles a point arrives where the backend takes it. -/
theorem backend_point? (source target : String) (p : Point) :
    backend.point? source target p = point? Double.isFinite source target p := by
  have hfind (descriptor : String) :
      (backend.find descriptor).toOption = (find? descriptor).map systemOf := by
    change (find descriptor).toOption = _
    unfold find
    cases find? descriptor <;> rfl
  unfold Backend.point?
  rw [hfind source, hfind target]
  change _ = ((find? source).bind fun a => (find? target).bind fun z =>
    if a.group = z.group then (image? a z p).filter Triple.isFinite else none)
  cases hsource : find? source with
  | none => rfl
  | some a =>
      cases htarget : find? target with
      | none => rfl
      | some z =>
          change ((connect (systemOf a) (systemOf z)).toOption.bind fun operation =>
            (operation.one p).toOption.bind fun q => if q.isFinite then some q else none) =
              if a.group = z.group then (image? a z p).filter Triple.isFinite else none
          rw [connect_systemOf (mem_of_find? hsource).1 (mem_of_find? htarget).1]
          by_cases hgroup : a.group = z.group
          · rw [if_pos hgroup, if_pos hgroup, ← transformOne_eq_image?]
            change ((transformOne a z p).toOption.bind fun q =>
              if q.isFinite then some q else none) = _
            cases transformOne a z p <;> rfl
          · rw [if_neg hgroup, if_neg hgroup]
            rfl

section

variable {source target : Entry ℚ} {p q p' q' : Triple ℚ}

theorem unit_pos : ∀ e ∈ (catalogue : List (Entry ℚ)), 0 < e.unit := by
  decide +kernel

theorem toBase_mono (h : 0 < source.unit) (hpq : p ≤ q) : source.toBase p ≤ source.toBase q := by
  obtain ⟨hx, hy, hz⟩ := hpq
  refine ⟨?_, ?_, ?_⟩ <;> dsimp only [Entry.toBase, Triple.zipWith] <;> gcongr

theorem fromBase_mono (h : 0 < target.unit) (hpq : p ≤ q) : target.fromBase p ≤ target.fromBase q := by
  obtain ⟨hx, hy, hz⟩ := hpq
  refine ⟨?_, ?_, ?_⟩ <;> dsimp only [Entry.fromBase, Triple.zipWith] <;> gcongr

theorem image?_eq_some (h : image? source target p = some p') :
    p' = target.fromBase (source.toBase p) := by
  unfold image? at h
  dsimp only at h
  split at h
  · cases h
  · cases h
  · cases h
  · exact (Option.some.inj h).symm
  · exact (Option.some.inj h).symm

theorem exists_of_point? {isFinite : ℚ → Bool} {input output : String}
    (h : point? isFinite input output p = some p') :
    ∃ a z, named? input = some a ∧ named? output = some z ∧ image? a z p = some p' := by
  unfold point? at h
  obtain ⟨a, ha, h⟩ := Option.bind_eq_some_iff.mp h
  obtain ⟨z, hz, h⟩ := Option.bind_eq_some_iff.mp h
  split at h
  · exact ⟨a, z, ha, hz, (Option.filter_eq_some_iff.mp h).1⟩
  · cases h

theorem point?_mono {isFinite : ℚ → Bool} {input output : String} (hpq : p ≤ q)
    (hp : point? isFinite input output p = some p')
    (hq : point? isFinite input output q = some q') : p' ≤ q' := by
  obtain ⟨a, z, ha, hz, hp⟩ := exists_of_point? hp
  obtain ⟨a', z', ha', hz', hq⟩ := exists_of_point? hq
  obtain rfl := Option.some.inj (ha.symm.trans ha')
  obtain rfl := Option.some.inj (hz.symm.trans hz')
  rw [image?_eq_some hp, image?_eq_some hq]
  apply fromBase_mono (unit_pos z (List.mem_of_find?_eq_some hz))
  exact toBase_mono (unit_pos a (List.mem_of_find?_eq_some ha)) hpq

end

end Local

end PointStream

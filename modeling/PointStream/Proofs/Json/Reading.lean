import PointStream.Proofs.Json.Lexer
import PointStream.Proofs.Json.Writing

namespace PointStream

open Decimal

namespace Options

theorem map_fst_put (options : Options) (key : String) (v : Value) :
    (options.put key v).map Prod.fst =
      if key ∈ options.map Prod.fst then options.map Prod.fst
      else options.map Prod.fst ++ [key] := by
  unfold put
  by_cases h : key ∈ options.map Prod.fst
  · have hany : (options.any fun option => option.1 == key) = true := by
      obtain ⟨option, hmem, hkey⟩ := List.mem_map.mp h
      exact List.any_eq_true.mpr ⟨option, hmem, beq_iff_eq.mpr hkey⟩
    rw [if_pos hany, if_pos h, List.map_map]
    apply List.map_congr_left
    intro option _
    simp only [Function.comp_apply]
    split
    · next hkey => exact (eq_of_beq hkey).symm
    · rfl
  · rw [if_neg h]
    change (Options.put options key v).map Prod.fst = _
    rw [put_of_not_mem v h, List.map_append]
    rfl

theorem nodup_put {options : Options} (h : (options.map Prod.fst).Nodup) (key : String)
    (v : Value) : ((options.put key v).map Prod.fst).Nodup := by
  rw [map_fst_put]
  split
  · exact h
  · next hkey =>
    rw [List.nodup_append]
    refine ⟨h, List.nodup_singleton key, ?_⟩
    rintro a ha b hb rfl
    exact hkey (List.mem_singleton.mp hb ▸ ha)

theorem mem_put {options : Options} {key : String} {v : Value} {m : String × Value}
    (h : m ∈ options.put key v) : m = (key, v) ∨ m ∈ options := by
  unfold put at h
  split at h
  · obtain ⟨option, hmem, heq⟩ := List.mem_map.mp h
    split at heq
    · exact .inl heq.symm
    · exact .inr (heq ▸ hmem)
  · rcases List.mem_append.mp h with hmem | hnew
    · exact .inr hmem
    · exact .inl (List.mem_singleton.mp hnew)

end Options

namespace Json

theorem nodup_membersOf (ms : List (String × Value)) : ((membersOf ms).map Prod.fst).Nodup := by
  induction ms with
  | nil => exact List.nodup_nil
  | cons m ms ih => exact Options.nodup_put ih m.1 m.2

theorem mem_of_mem_membersOf {ms : List (String × Value)} {m : String × Value}
    (h : m ∈ membersOf ms) : m ∈ ms := by
  induction ms with
  | nil => cases h
  | cons first ms ih =>
      rcases Options.mem_put h with rfl | hmem
      · exact List.mem_cons_self
      · exact List.mem_cons_of_mem _ (ih hmem)

theorem isPlain_of_unsigned? {negative : Bool} {cs : List Char} {v : Value}
    (h : unsigned? negative cs = some v) : v.IsPlain := by
  unfold unsigned? at h
  dsimp only at h
  split_ifs at h
  · cases h
    exact .whole _
  · cases h
    exact .whole _
  · split at h
    · cases h
    · cases h
      refine .real fun hnan => ?_
      unfold Numeral.toDouble at hnan
      rw [Double.isNaN_ofSignCode negative (Numeral.code_le _)] at hnan
      cases hnan

theorem isPlain_of_wordValue? {cs : List Char} {v : Value} (h : wordValue? cs = some v) :
    v.IsPlain := by
  have hconstants : ∀ constant ∈ constants, constant.2.IsPlain := by
    simp only [constants, List.forall_mem_cons]
    exact ⟨.null, .truth _, .truth _, .real fun _ => rfl,
      .real fun h => absurd h (by decide), .real fun h => absurd h (by decide), by simp⟩
  unfold wordValue? at h
  split at h
  · next constant hfound =>
    cases h
    exact hconstants constant (List.mem_of_find?_eq_some hfound)
  · split at h
    · exact isPlain_of_unsigned? h
    · exact isPlain_of_unsigned? h

/-- Members of a record as the reader holds them. -/
def PlainMembers (members : List (String × Value)) : Prop :=
  ∀ m ∈ members, Text.IsText m.1 ∧ m.2.IsPlain

def Frame.Sound : Frame → Prop
  | .list items => ∀ v ∈ items, v.IsPlain
  | .record members key => PlainMembers members ∧ Text.IsText key

def Demand.Sound : Demand → Prop
  | .key members => PlainMembers members
  | .colon members name => PlainMembers members ∧ Text.IsText name
  | .after v => v.IsPlain
  | _ => True

/-- The reader holds plain data only. -/
def Reader.Sound (r : Reader) : Prop :=
  (∀ f ∈ r.frames, f.Sound) ∧ r.demand.Sound

theorem sound_closeList {frames : List Frame} {items : List Value} (hf : ∀ f ∈ frames, f.Sound)
    (h : ∀ v ∈ items, v.IsPlain) : (closeList frames items).Sound :=
  ⟨hf, Value.IsPlain.list fun v hv => h v (List.mem_reverse.mp hv)⟩

theorem sound_closeRecord {frames : List Frame} {members : List (String × Value)}
    (hf : ∀ f ∈ frames, f.Sound) (h : PlainMembers members) :
    (closeRecord frames members).Sound :=
  ⟨hf, Value.IsPlain.record (nodup_membersOf members)
    (fun m hm => (h m (mem_of_mem_membersOf hm)).1)
    fun m hm => (h m (mem_of_mem_membersOf hm)).2⟩

theorem sound_beginValue? {frames : List Frame} {t : Token} {r : Reader}
    (hf : ∀ f ∈ frames, f.Sound) (ht : t.Sound) (h : beginValue? frames t = some r) :
    r.Sound := by
  cases t with
  | openList =>
      cases h
      exact ⟨List.forall_mem_cons.mpr ⟨by rintro v ⟨⟩, hf⟩, trivial⟩
  | openRecord =>
      cases h
      exact ⟨hf, trivial⟩
  | string s =>
      cases h
      exact ⟨hf, Value.IsPlain.text ht⟩
  | word cs =>
      obtain ⟨v, hv, heq⟩ := Option.map_eq_some_iff.mp h
      subst heq
      exact ⟨hf, isPlain_of_wordValue? hv⟩
  | _ => cases h

/-- One token keeps the reader to plain data. The cases are those of what it waits for and what it
gets. -/
theorem sound_step? {r next : Reader} {t : Token} (hr : r.Sound) (ht : t.Sound)
    (h : r.step? t = some next) : next.Sound := by
  obtain ⟨frames, demand⟩ := r
  obtain ⟨hf, hd⟩ := hr
  dsimp only at hf hd
  unfold Reader.step? at h
  split at h
  all_goals subst_vars
  · exact sound_beginValue? hf ht h
  · cases h
    obtain ⟨hitems, hf⟩ := List.forall_mem_cons.mp hf
    exact sound_closeList hf hitems
  · exact sound_beginValue? hf ht h
  · cases h
    exact ⟨hf, hd, ht⟩
  · cases h
    exact ⟨hf, by rintro m ⟨⟩, ht⟩
  · cases h
    exact sound_closeRecord hf (by rintro m ⟨⟩)
  · cases h
    exact ⟨List.forall_mem_cons.mpr ⟨hd, hf⟩, trivial⟩
  · cases h
    obtain ⟨hitems, hf⟩ := List.forall_mem_cons.mp hf
    exact ⟨List.forall_mem_cons.mpr ⟨List.forall_mem_cons.mpr ⟨hd, hitems⟩, hf⟩, trivial⟩
  · cases h
    obtain ⟨hitems, hf⟩ := List.forall_mem_cons.mp hf
    exact sound_closeList hf (List.forall_mem_cons.mpr ⟨hd, hitems⟩)
  · cases h
    obtain ⟨⟨hmembers, hkey⟩, hf⟩ := List.forall_mem_cons.mp hf
    exact ⟨hf, List.forall_mem_cons.mpr ⟨⟨hkey, hd⟩, hmembers⟩⟩
  · cases h
    obtain ⟨⟨hmembers, hkey⟩, hf⟩ := List.forall_mem_cons.mp hf
    exact sound_closeRecord hf (List.forall_mem_cons.mpr ⟨⟨hkey, hd⟩, hmembers⟩)
  · cases h

theorem sound_run? {r last : Reader} {ts : List Token} (hr : r.Sound) (hts : ∀ t ∈ ts, t.Sound)
    (h : r.run? ts = some last) : last.Sound := by
  induction ts generalizing r with
  | nil =>
      cases h
      exact hr
  | cons t ts ih =>
      rw [run?_cons] at h
      obtain ⟨next, hstep, hrun⟩ := Option.bind_eq_some_iff.mp h
      obtain ⟨ht, hts⟩ := List.forall_mem_cons.mp hts
      exact ih (sound_step? hr ht hstep) hts hrun

/-- What is read from a text of plain characters is plain data. -/
theorem isPlain_of_read? {s : String} {v : Value} (h : read? (Text.ofPlain s) = some v) :
    v.IsPlain := by
  unfold read? Text.ofPlain Text.ofCodePoints at h
  rw [String.toList_ofList] at h
  obtain ⟨ts, htokens, h⟩ := Option.bind_eq_some_iff.mp h
  obtain ⟨r, hrun, h⟩ := Option.bind_eq_some_iff.mp h
  have hstart : (⟨[], .value⟩ : Reader).Sound := ⟨by rintro f ⟨⟩, trivial⟩
  have hr := sound_run? hstart (Token.scan?_sound Token.between_sound htokens) hrun
  split at h
  · cases h
    exact hr.2
  · cases h

end Json

end PointStream

import PointStream.Crs.Local
import PointStream.Proofs.Failure
import PointStream.Stage.Reproject
import Mathlib.Data.List.Forall2

namespace PointStream

variable {ps qs : List Point} {p q : Point}

namespace Operation

def Gathers (operation : Operation) : Prop :=
  ∀ ps qs, List.Forall₂ (fun p q => operation.one p = .ok q) ps qs → operation.many ps = .ok qs

def Scatters (operation : Operation) : Prop :=
  ∀ ps qs, operation.many ps = .ok qs → List.Forall₂ (fun p q => operation.one p = .ok q) ps qs

end Operation

namespace Transform

variable {t : Transform} {operation : Operation}

def Gathers (t : Transform) : Prop :=
  ∀ ps qs, List.Forall₂ (fun p q => t.apply p = .ok q) ps qs → t.applyAll ps = .ok qs

def Scatters (t : Transform) : Prop :=
  ∀ ps qs, t.applyAll ps = .ok qs → List.Forall₂ (fun p q => t.apply p = .ok q) ps qs

theorem apply_eq_ok_iff (h : t.operation = some operation) :
    t.apply p = .ok q ↔ operation.one p = .ok q ∧ q.isFinite = true := by
  simp only [apply, h]
  cases operation.one p with
  | error diagnostic => simp
  | ok q' =>
      rw [ite_eq_ok_iff, Except.ok.injEq]
      apply and_congr_right
      rintro rfl
      rfl

theorem isFinite_of_apply (h : t.apply p = .ok q) : q.isFinite = true := by
  cases hoperation : t.operation with
  | none =>
      simp only [apply, hoperation] at h
      cases h
  | some operation => exact ((apply_eq_ok_iff hoperation).mp h).2

theorem applyAll_eq_ok_iff (h : t.operation = some operation) :
    t.applyAll ps = .ok qs ↔ operation.many ps = .ok qs ∧ ∀ q ∈ qs, q.isFinite = true := by
  simp only [applyAll, h]
  cases operation.many ps with
  | error diagnostic => simp
  | ok qs' =>
      rw [ite_eq_ok_iff, Except.ok.injEq]
      apply and_congr_right
      rintro rfl
      exact List.all_eq_true

theorem gathers_of_operation (h : t.operation = some operation) (hgathers : operation.Gathers) :
    t.Gathers := by
  intro ps qs hpoints
  refine (applyAll_eq_ok_iff h).mpr ⟨?_, ?_⟩
  · apply hgathers
    exact hpoints.imp fun p q hq => ((apply_eq_ok_iff h).mp hq).1
  · intro q hq
    obtain ⟨i, hi, rfl⟩ := List.mem_iff_get.mp hq
    have hi : i < ps.length := by
      rw [hpoints.length_eq]
      exact i.isLt
    have hat := hpoints.get hi i.isLt
    exact ((apply_eq_ok_iff h).mp hat).2

theorem scatters_of_operation (h : t.operation = some operation)
    (hscatters : operation.Scatters) : t.Scatters := by
  intro ps qs hrow
  obtain ⟨hmany, hfinite⟩ := (applyAll_eq_ok_iff h).mp hrow
  have hpoints := hscatters ps qs hmany
  refine List.forall₂_iff_get.mpr ⟨hpoints.length_eq, ?_⟩
  intro i hi hi'
  exact (apply_eq_ok_iff h).mpr ⟨hpoints.get hi hi', hfinite _ (List.get_mem ..)⟩

theorem length_applyAll (h : t.applyAll ps = .ok qs) : qs.length = ps.length := by
  cases hoperation : t.operation with
  | none =>
      simp only [applyAll, hoperation] at h
      cases h
  | some operation => exact operation.length_many ((applyAll_eq_ok_iff hoperation).mp h).1

theorem project_eq_ok_iff : t.project p = .ok q ↔ t.apply p = .ok q := by
  unfold project
  cases t.apply p <;> simp

theorem project_eq_error {e : Failure} (h : t.project p = .error e) :
    ∃ diagnostic, e = .pointProjection p diagnostic := by
  unfold project at h
  split at h
  · cases h
  · cases h
    exact ⟨_, rfl⟩

theorem ofTransform_rowFailure (t : Transform) (diagnostic : String) (ps : List Point) :
    (t.rowFailure diagnostic ps).ofTransform = true := by
  induction ps with
  | nil => rfl
  | cons p ps ih =>
      unfold rowFailure
      split
      · exact ih
      · next e he =>
        obtain ⟨diagnostic, rfl⟩ := project_eq_error he
        rfl

theorem rowFailure_append {e : Failure} (diagnostic : String)
    (hps : List.Forall₂ (fun p q => t.apply p = .ok q) ps qs) (hp : t.project p = .error e)
    (rest : List Point) : t.rowFailure diagnostic (ps ++ p :: rest) = e := by
  induction hps with
  | nil => simp only [List.nil_append, rowFailure, hp]
  | cons hq _ ih => simp only [List.cons_append, rowFailure, project_eq_ok_iff.mpr hq, ih]

end Transform

namespace Local

variable {source target : Entry Double} {base : Point} {beyond : Beyond}

theorem limit_of_beyond? (h : beyond? target base = some beyond) :
    target.limit.map Prod.snd = some beyond := by
  unfold beyond? at h
  split at h
  · next hlimit =>
    split at h
    · cases h
      rw [hlimit]
      rfl
    · cases h
  · cases h

theorem transformOne_eq_ok_iff :
    transformOne source target p = .ok q ↔
      beyond? target (source.toBase p) ≠ some .refused ∧ arrive target (source.toBase p) = q := by
  simp only [transformOne]
  cases hbeyond : beyond? target (source.toBase p) with
  | none => simp
  | some beyond => cases beyond <;> simp

/-- Whether the limit of a system lets a base point into a row. -/
def Allows (target : Entry Double) (base : Point) : Prop :=
  beyond? target base ≠ some .refused ∧ beyond? target base ≠ some .rowRefused

theorem transformMany_eq_ok_iff :
    transformMany source target ps = .ok qs ↔
      (∀ p ∈ ps, Allows target (source.toBase p)) ∧
      ps.map (fun p => arrive target (source.toBase p)) = qs := by
  have hrow (hallowed : ∀ p ∈ ps, Allows target (source.toBase p)) :
      (Except.ok ((ps.map source.toBase).map (arrive target)) : Except String (List Point)) =
          .ok qs ↔
        (∀ p ∈ ps, Allows target (source.toBase p)) ∧
        ps.map (fun p => arrive target (source.toBase p)) = qs := by
    rw [List.map_map, Except.ok.injEq]
    exact ⟨fun h => ⟨hallowed, h⟩, And.right⟩
  simp only [transformMany]
  -- A system has one way to treat what lies beyond its limit, so the first such point of a row
  -- decides for all of them.
  cases hhead : ((ps.map source.toBase).filterMap (beyond? target)).head? with
  | none =>
      rw [List.head?_eq_none_iff, List.filterMap_eq_nil_iff] at hhead
      apply hrow
      intro p hp
      rw [Allows, hhead _ (List.mem_map_of_mem hp)]
      exact ⟨(Option.some_ne_none _).symm, (Option.some_ne_none _).symm⟩
  | some first =>
      obtain ⟨base, hbase, hfirst⟩ := List.mem_filterMap.mp (List.mem_of_head? hhead)
      obtain ⟨p, hp, rfl⟩ := List.mem_map.mp hbase
      have hsame : ∀ base beyond, beyond? target base = some beyond → first = beyond := by
        intro base beyond hbeyond
        exact Option.some.inj ((limit_of_beyond? hfirst).symm.trans (limit_of_beyond? hbeyond))
      cases first with
      | refused =>
          constructor
          · intro h
            cases h
          · intro h
            exact absurd hfirst (h.1 p hp).1
      | rowRefused =>
          constructor
          · intro h
            cases h
          · intro h
            exact absurd hfirst (h.1 p hp).2
      | infinite =>
          apply hrow
          intro p _
          exact ⟨fun h => absurd (hsame _ _ h) (by decide),
            fun h => absurd (hsame _ _ h) (by decide)⟩
      | heightLost =>
          apply hrow
          intro p _
          exact ⟨fun h => absurd (hsame _ _ h) (by decide),
            fun h => absurd (hsame _ _ h) (by decide)⟩

theorem forall₂_transformOne (h : transformMany source target ps = .ok qs) :
    List.Forall₂ (fun p q => transformOne source target p = .ok q) ps qs := by
  obtain ⟨hallowed, rfl⟩ := transformMany_eq_ok_iff.mp h
  rw [List.forall₂_map_right_iff, List.forall₂_same]
  intro p hp
  exact transformOne_eq_ok_iff.mpr ⟨(hallowed p hp).1, rfl⟩

theorem transformMany_of_forall₂ (htarget : target.limit.map Prod.snd ≠ some .rowRefused)
    (h : List.Forall₂ (fun p q => transformOne source target p = .ok q) ps qs) :
    transformMany source target ps = .ok qs := by
  have hpoints : List.Forall₂ (fun p q => beyond? target (source.toBase p) ≠ some .refused ∧
      arrive target (source.toBase p) = q) ps qs :=
    h.imp fun p q => transformOne_eq_ok_iff.mp
  obtain ⟨hallowed, hpoints⟩ := (List.forall₂_and_left _ _).mp hpoints
  refine transformMany_eq_ok_iff.mpr ⟨?_, ?_⟩
  · intro p hp
    exact ⟨hallowed p hp, fun hbeyond => htarget (limit_of_beyond? hbeyond)⟩
  · rw [← List.forall₂_map_left_iff (f := fun p => arrive target (source.toBase p))
      (R := (· = ·)), List.forall₂_eq_eq_eq] at hpoints
    exact hpoints

end Local

namespace Backend

variable {b : Backend}

theorem find_of_findFor {role : Role} {descriptor : String} {system : System}
    (h : b.findFor role descriptor = .ok system) : b.find descriptor = .ok system := by
  unfold findFor at h
  cases hfind : b.find descriptor with
  | error diagnostic =>
      rw [hfind] at h
      cases h
  | ok found =>
      rw [hfind] at h
      cases h
      rfl

theorem acquire_eq_ok {input output : String} {t : Transform}
    (h : b.acquire input output = .ok t) :
    b.find output = .ok t.target ∧
      ∃ operation, b.connect t.source t.target = .ok operation ∧ t.operation = some operation := by
  unfold acquire at h
  split at h
  · cases h
  · next a ha =>
    split at h
    · cases h
    · next z hz =>
      split at h
      · cases h
      · next operation hconnect =>
        cases h
        exact ⟨find_of_findFor hz, operation, hconnect, rfl⟩

end Backend

namespace Local

variable {input output : String} {t : Transform}

theorem mem_of_find? {descriptor : String} {e : Entry Double} (h : find? descriptor = some e) :
    e ∈ catalogue ∧ (e.key = descriptor ∨ fullText e.key = descriptor) := by
  refine ⟨List.mem_of_find?_eq_some h, ?_⟩
  have hnamed := List.find?_some h
  simpa using hnamed

theorem exists_of_find {descriptor : String} {system : System} (h : find descriptor = .ok system) :
    ∃ e, find? descriptor = some e ∧ system.key = e.key := by
  unfold find at h
  split at h
  · next e he => exact ⟨e, he, congrArg System.key (Except.ok.inj h).symm⟩
  · cases h

theorem key_of_rowRefused :
    ∀ e ∈ (catalogue : List (Entry Double)),
      e.limit.map Prod.snd = some .rowRefused → e.key = "T:BULK" := by
  decide

theorem key_ne_fullText :
    ∀ e ∈ (catalogue : List (Entry Double)), fullText "T:BULK" ≠ e.key := by
  decide

/-- The operation of a local transform leads between entries, of which only one treats rows of
points in its own way. -/
theorem exists_entries (h : backend.acquire input output = .ok t) :
    ∃ a b, t.operation = some ⟨transformOne a b, transformMany a b, length_of_transformMany⟩ ∧
      (b.limit.map Prod.snd = some .rowRefused → t.target.key = "T:BULK") := by
  obtain ⟨hfind, operation, hconnect, hoperation⟩ := Backend.acquire_eq_ok h
  obtain ⟨e, he, hkey⟩ := exists_of_find hfind
  change connect t.source t.target = .ok operation at hconnect
  unfold connect at hconnect
  split at hconnect
  · next a b _ hb =>
    split at hconnect
    · cases hconnect
      refine ⟨a, b, hoperation, ?_⟩
      intro hrow
      obtain ⟨hmem, hnamed⟩ := mem_of_find? hb
      rw [key_of_rowRefused b hmem hrow, hkey] at hnamed
      rcases hnamed with hnamed | hnamed
      · exact hkey.trans hnamed.symm
      · exact absurd hnamed (key_ne_fullText e (mem_of_find? he).1)
    · cases hconnect
  · cases hconnect

theorem scatters_acquire (h : backend.acquire input output = .ok t) : t.Scatters := by
  obtain ⟨a, b, hoperation, _⟩ := exists_entries h
  exact Transform.scatters_of_operation hoperation fun ps qs => forall₂_transformOne

theorem gathers_acquire (h : backend.acquire input output = .ok t)
    (htarget : t.target.key ≠ "T:BULK") : t.Gathers := by
  obtain ⟨a, b, hoperation, hbulk⟩ := exists_entries h
  refine Transform.gathers_of_operation hoperation fun ps qs => transformMany_of_forall₂ ?_
  exact fun hrow => htarget (hbulk hrow)

end Local

end PointStream

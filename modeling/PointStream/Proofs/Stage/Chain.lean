import PointStream.Proofs.Buffer.Words
import PointStream.Proofs.Crs.Elementwise
import PointStream.Proofs.Lists
import PointStream.Stage.Prepare

namespace PointStream

/-- Three points from the origin to a corner. -/
def Generator.ramp (corner : Double) : Generator :=
  ⟨⟨Triple.all 0, Triple.all corner⟩, 3, .ramp, Schema.standard, 0⟩

namespace Stage

/-- The generator at the head of a chain of reprojections. -/
def generator? : Stage → Option Generator
  | source _ _ (.generated g) => some g
  | filter _ _ (.reprojection _) previous => previous.generator?
  | _ => none

/-- A stage and all that stand before it, the first one first. -/
def chain : Stage → List Stage
  | filter n o kind previous => previous.chain ++ [filter n o kind previous]
  | s => [s]

/-- A point after all filters of a chain. -/
def carry (statuses : Statuses) : Stage → Point → Except Failure Point
  | filter n o kind previous, p =>
    match previous.carry statuses p with
    | .error e => .error e
    | .ok q => (filter n o kind previous).project statuses q
  | _, p => .ok p

/-- A row of points after one filter. -/
def projectRow (s : Stage) (statuses : Statuses) (ps : List Point) : Except Failure (List Point) :=
  match s.transform statuses with
  | .error e => .error e
  | .ok t =>
    match ps with
    | [] => .ok []
    | ps =>
      match t.applyAll ps with
      | .ok qs => .ok qs
      | .error e => .error (t.rowFailure e.diagnostic ps)

/-- A row of points after all filters of a chain. -/
def carryRow (statuses : Statuses) : Stage → List Point → Except Failure (List Point)
  | filter n o kind previous, ps =>
    match previous.carryRow statuses ps with
    | .error e => .error e
    | .ok qs => (filter n o kind previous).projectRow statuses qs
  | _, ps => .ok ps

def ramp (corner : Double) : Stage :=
  .source 0 [] (.generated (.ramp corner))

/-- A ramp behind which a reprojection to a local system stands. -/
def rampTo (corner : Double) (output : String) : Stage :=
  .filter 1 [] (.reprojection ⟨⟨output⟩, some ⟨"T:BASE"⟩⟩) (ramp corner)

/-- Whether every filter of a chain holds a transform of a certain kind. -/
def Holds (statuses : Statuses) (kind : Transform → Prop) (s : Stage) : Prop :=
  ∀ f ∈ s.chain, f.isFilter = true → ∃ t, f.transform statuses = .ok t ∧ kind t

@[elab_as_elim]
theorem generator?_induction {g : Generator} {motive : (s : Stage) → s.generator? = some g → Prop}
    (source : ∀ n o, motive (.source n o (.generated g)) rfl)
    (reprojection : ∀ n o r previous (h : previous.generator? = some g), motive previous h →
      motive (.filter n o (.reprojection r) previous) h)
    (s : Stage) (h : s.generator? = some g) : motive s h := by
  induction s with
  | source n o kind =>
      cases kind with
      | generated g' =>
          cases h
          exact source n o
      | plain p => cases h
  | filter n o kind previous ih =>
      cases kind with
      | reprojection r => exact reprojection n o r previous h (ih h)
      | plain p => cases h
  | loose n o kind given => cases h

variable {statuses : Statuses} {s before : Stage} {g : Generator} {ps qs : List Point}
  {p q : Point} {e : Failure} {t : Transform} {kind kind' : Transform → Prop}

theorem self_mem_chain (s : Stage) : s ∈ s.chain := by
  cases s <;> simp [chain]

namespace Holds

variable {n : Nat} {o : Options} {k : FilterKind}

theorem previous (h : (filter n o k before).Holds statuses kind) :
    before.Holds statuses kind :=
  fun f hf => h f (List.mem_append_left _ hf)

theorem own (h : (filter n o k before).Holds statuses kind) :
    ∃ t, (filter n o k before).transform statuses = .ok t ∧ kind t :=
  h _ (self_mem_chain _) rfl

theorem imp (h : s.Holds statuses kind) (himp : ∀ t, kind t → kind' t) :
    s.Holds statuses kind' := by
  intro f hf hfilter
  obtain ⟨t, ht, hkind⟩ := h f hf hfilter
  exact ⟨t, ht, himp t hkind⟩

end Holds

theorem isFilter_of_transform (h : s.transform statuses = .ok t) : s.isFilter = true := by
  cases s with
  | source n o kind => cases h
  | filter n o kind previous => rfl
  | loose n o kind given => rfl

theorem project_of_transform (h : s.transform statuses = .ok t) (p : Point) :
    s.project statuses p = t.project p := by
  simp only [project, h]

theorem ofTransform_projectRow (h : s.transform statuses = .ok t)
    (hrow : s.projectRow statuses ps = .error e) : e.ofTransform = true := by
  simp only [projectRow, h] at hrow
  split at hrow
  · cases hrow
  · split at hrow
    · cases hrow
    · cases hrow
      exact Transform.ofTransform_rowFailure _ _ _

theorem projectRow_eq_error (hreprojection : s.isReprojection = true)
    (h : s.projectRow statuses ps = .error e) :
    e.ofTransform = true ∨ s.transform statuses = .error e ∧ e = .noTransform s.typeName := by
  cases ht : s.transform statuses with
  | ok t => exact .inl (ofTransform_projectRow ht h)
  | error e' =>
      simp only [projectRow, ht] at h
      cases h
      refine .inr ⟨rfl, ?_⟩
      unfold transform at ht
      rw [hreprojection] at ht
      cases hheld : (s.status statuses).transform with
      | none =>
          simp only [hheld] at ht
          cases ht
          rfl
      | some t =>
          simp only [hheld] at ht
          cases ht

theorem length_projectRow (h : s.projectRow statuses ps = .ok qs) : qs.length = ps.length := by
  unfold projectRow at h
  split at h
  · cases h
  · split at h
    · cases h
      rfl
    · split at h
      · next hrow =>
        cases h
        exact Transform.length_applyAll hrow
      · cases h

theorem projectRow_of_gathers (h : s.transform statuses = .ok t) (hgathers : t.Gathers)
    (hpoints : List.Forall₂ (fun p q => t.apply p = .ok q) ps qs) :
    s.projectRow statuses ps = .ok qs := by
  simp only [projectRow, h]
  cases hpoints with
  | nil => rfl
  | cons hp hps => simp only [hgathers _ _ (hps.cons hp)]

theorem projectRow_scatters (h : s.transform statuses = .ok t) (hscatters : t.Scatters)
    (hrow : s.projectRow statuses ps = .ok qs) :
    List.Forall₂ (fun p q => t.apply p = .ok q) ps qs := by
  simp only [projectRow, h] at hrow
  split at hrow
  · cases hrow
    exact .nil
  · split at hrow
    · next hall =>
      cases hrow
      exact hscatters _ _ hall
    · cases hrow

theorem projectRow_append (h : s.transform statuses = .ok t) (hscatters : t.Scatters)
    (hps : List.Forall₂ (fun p q => t.apply p = .ok q) ps qs) (hp : t.project p = .error e)
    (rest : List Point) : s.projectRow statuses (ps ++ p :: rest) = .error e := by
  simp only [projectRow, h]
  split
  · next hnil => exact absurd hnil (List.append_ne_nil_of_right_ne_nil ps (List.cons_ne_nil p rest))
  · split
    · next hall =>
      obtain ⟨q, hq⟩ := exists_of_forall₂ (hscatters _ _ hall)
        (List.mem_append_right ps (List.mem_cons_self ..))
      rw [Transform.project_eq_ok_iff.mpr hq] at hp
      cases hp
    · rw [Transform.rowFailure_append _ hps hp]

theorem carry_filter_eq_ok_iff {n : Nat} {o : Options} {k : FilterKind} :
    (filter n o k before).carry statuses p = .ok q ↔
      ∃ m, before.carry statuses p = .ok m ∧ (filter n o k before).project statuses m = .ok q := by
  simp only [carry]
  cases before.carry statuses p <;> simp

theorem carryRow_of_forall₂ (hs : s.generator? = some g)
    (hholds : s.Holds statuses Transform.Gathers)
    (h : List.Forall₂ (fun p q => s.carry statuses p = .ok q) ps qs) :
    s.carryRow statuses ps = .ok qs := by
  induction s, hs using generator?_induction generalizing qs with
  | source n o =>
      have heq : List.Forall₂ (· = ·) ps qs := h.imp fun p q hq => Except.ok.inj hq
      rw [List.forall₂_eq_eq_eq] at heq
      exact congrArg Except.ok heq
  | reprojection n o r previous hprevious ih =>
      obtain ⟨t, ht, hgathers⟩ := hholds.own
      obtain ⟨ms, hms, hqs⟩ := exists_between_forall₂
        (h.imp fun p q hq => carry_filter_eq_ok_iff.mp hq)
      simp only [carryRow, ih hholds.previous hms]
      apply projectRow_of_gathers ht hgathers
      refine hqs.imp ?_
      intro m q hq
      rw [project_of_transform ht] at hq
      exact Transform.project_eq_ok_iff.mp hq

theorem forall₂_of_carryRow (hs : s.generator? = some g)
    (hholds : s.Holds statuses Transform.Scatters) (h : s.carryRow statuses ps = .ok qs) :
    List.Forall₂ (fun p q => s.carry statuses p = .ok q) ps qs := by
  induction s, hs using generator?_induction generalizing qs with
  | source n o =>
      cases h
      exact List.forall₂_same.mpr fun p _ => rfl
  | reprojection n o r previous hprevious ih =>
      obtain ⟨t, ht, hscatters⟩ := hholds.own
      unfold carryRow at h
      split at h
      · cases h
      · next ms hms =>
        have hpoints := forall₂_through (ih hholds.previous hms)
          (projectRow_scatters ht hscatters h)
        refine hpoints.imp ?_
        rintro p q ⟨m, hm, hq⟩
        refine carry_filter_eq_ok_iff.mpr ⟨m, hm, ?_⟩
        rw [project_of_transform ht]
        exact Transform.project_eq_ok_iff.mpr hq

theorem length_carryRow (hs : s.generator? = some g) (h : s.carryRow statuses ps = .ok qs) :
    qs.length = ps.length := by
  induction s, hs using generator?_induction generalizing qs with
  | source n o =>
      cases h
      rfl
  | reprojection n o r previous hprevious ih =>
      unfold carryRow at h
      split at h
      · cases h
      · next hms => exact (length_projectRow h).trans (ih hms)

theorem holds_of_carryRow (hs : s.generator? = some g) (h : s.carryRow statuses ps = .ok qs) :
    s.Holds statuses fun _ => True := by
  induction s, hs using generator?_induction generalizing qs with
  | source n o =>
      intro f hf hfilter
      cases List.mem_singleton.mp hf
      cases hfilter
  | reprojection n o r previous hprevious ih =>
      unfold carryRow at h
      split at h
      · cases h
      · next hrow =>
        intro f hf hfilter
        rcases List.mem_append.mp hf with hf | hf
        · exact ih hrow f hf hfilter
        · cases List.mem_singleton.mp hf
          unfold projectRow at h
          split at h
          · cases h
          · next t ht => exact ⟨t, ht, trivial⟩

theorem carryRow_eq_error (hs : s.generator? = some g) (h : s.carryRow statuses ps = .error e) :
    e.ofTransform = true ∨
      ∃ f ∈ s.chain, f.isFilter = true ∧ f.transform statuses = .error e ∧
        e = .noTransform f.typeName := by
  induction s, hs using generator?_induction with
  | source n o => cases h
  | reprojection n o r previous hprevious ih =>
      unfold carryRow at h
      split at h
      · next hrow =>
        cases h
        rcases ih hrow with he | ⟨f, hf, hfailed⟩
        · exact .inl he
        · exact .inr ⟨f, List.mem_append_left _ hf, hfailed⟩
      · rcases projectRow_eq_error rfl h with he | he
        · exact .inl he
        · exact .inr ⟨_, self_mem_chain _, rfl, he⟩

theorem ofTransform_carryRow (hs : s.generator? = some g) (hholds : s.Holds statuses kind)
    (h : s.carryRow statuses ps = .error e) : e.ofTransform = true := by
  rcases carryRow_eq_error hs h with he | ⟨f, hf, hfilter, hfailed, _⟩
  · exact he
  · obtain ⟨t, ht, _⟩ := hholds f hf hfilter
    rw [ht] at hfailed
    cases hfailed

/-- Behind a single reprojection the failure of a row names the first point that fails, as it came
from the source. -/
theorem carryRow_append (hs : s.generator? = some g) (hlength : s.chain.length = 2)
    (hholds : s.Holds statuses Transform.Scatters)
    (hps : List.Forall₂ (fun p q => s.carry statuses p = .ok q) ps qs)
    (hp : s.carry statuses p = .error e) (rest : List Point) :
    s.carryRow statuses (ps ++ p :: rest) = .error e ∧ ∃ d, e = .pointProjection p d := by
  match s, hs, hlength with
  | filter n o (.reprojection r) (source n' o' (.generated g')), hs, _ =>
      obtain ⟨t, ht, hscatters⟩ := hholds.own
      simp only [carry, project_of_transform ht, Transform.project_eq_ok_iff] at hps hp
      simp only [carryRow]
      exact ⟨projectRow_append ht hscatters hps hp rest, Transform.project_eq_error hp⟩
  | filter n o (.reprojection r) (filter n' o' k previous), hs, hlength =>
      have hpos := List.length_pos_of_mem (self_mem_chain previous)
      simp only [chain, List.length_append, List.length_singleton] at hlength
      omega

/-- A filter makes of a buffer what it makes of the row of its points: it fails if the row does, and
otherwise lays the points of the new row over the buffer. -/
theorem reprojectBuffer_eq_map (s : Stage) (statuses : Statuses) {b : Buffer}
    (hcoordinates : b.schema.HasCoordinates) :
    ∃ put : List Point → Buffer,
      s.reprojectBuffer statuses b = (s.projectRow statuses b.points).map put ∧
      ∀ qs, s.projectRow statuses b.points = .ok qs →
        Buffer.Overlays b (put qs) (Buffer.moved qs) := by
  cases ht : s.transform statuses with
  | error e =>
      refine ⟨fun _ => b, ?_, ?_⟩
      · simp only [reprojectBuffer, projectRow, ht]
        rfl
      · intro qs h
        simp only [projectRow, ht] at h
        cases h
  | ok t =>
      by_cases hcount : b.count = 0
      · have hnone : b.points = [] := by simp [Buffer.points, hcount]
        refine ⟨fun _ => b, ?_, ?_⟩
        · simp only [reprojectBuffer, projectRow, ht, hnone, Buffer.reproject, if_pos hcount]
          rfl
        · intro qs h
          simp only [projectRow, ht, hnone] at h
          cases h
          exact ⟨rfl, rfl, fun d _ row => by simp [Buffer.moved]⟩
      · have hsome : b.points ≠ [] := by simpa [Buffer.points] using hcount
        obtain ⟨columns, hcolumns, hx, hy, hz⟩ := Buffer.exists_coordinateColumns hcoordinates
        have hpoints := Buffer.pointsIn_eq_points hx hy hz
        refine ⟨b.putPoints columns, ?_, fun qs _ => Buffer.overlays_putPoints hx hy hz qs⟩
        simp only [reprojectBuffer, projectRow, ht, Buffer.reproject, if_neg hcount, hcolumns,
          hpoints]
        cases t.applyAll b.points <;> rfl

theorem exists_reprojectBuffer {b : Buffer} (hcoordinates : b.schema.HasCoordinates)
    (h : s.projectRow statuses b.points = .ok qs) :
    ∃ b', s.reprojectBuffer statuses b = .ok b' ∧ Buffer.Overlays b b' (Buffer.moved qs) := by
  obtain ⟨put, hput, hoverlays⟩ := reprojectBuffer_eq_map s statuses hcoordinates
  refine ⟨put qs, ?_, hoverlays qs h⟩
  rw [hput, h]
  rfl

theorem reprojectBuffer_eq_error {b : Buffer} (hcoordinates : b.schema.HasCoordinates)
    (h : s.projectRow statuses b.points = .error e) : s.reprojectBuffer statuses b = .error e := by
  obtain ⟨put, hput, _⟩ := reprojectBuffer_eq_map s statuses hcoordinates
  rw [hput, h]
  rfl

end Stage

end PointStream

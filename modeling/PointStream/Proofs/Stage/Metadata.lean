import PointStream.Proofs.Crs.Elementwise
import PointStream.Stage.Prepare

namespace PointStream

structure Metadata where
  schema : Schema
  bounds : Bounds
  total : Nat
  reference : SpatialReference
  /-- The input reference of a reprojection. -/
  input : SpatialReference

def Status.metadata (own : Status) : Metadata :=
  ⟨own.schema, own.bounds, own.total, own.reference, own.input⟩

/-- The box with both corners moved, or the box itself if one of them cannot be moved. -/
def Bounds.moved (move : Point → Option Point) (box : Bounds) : Bounds :=
  match move box.minimum, move box.maximum with
  | some minimum, some maximum => ⟨minimum, maximum⟩
  | _, _ => box

namespace Backend

/-- A point on its way from one system to another, if it arrives at a finite place. -/
def point? (b : Backend) (source target : String) (p : Point) : Option Point := do
  let a ← (b.find source).toOption
  let z ← (b.find target).toOption
  let operation ← (b.connect a z).toOption
  let q ← (operation.one p).toOption
  if q.isFinite then some q else none

def unknown (b : Backend) (role : Role) (text : String) : List Failure :=
  match b.find text with
  | .error diagnostic => [.importFailed role text diagnostic]
  | .ok _ => []

def unconnected (b : Backend) (source target : String) : List Failure :=
  match b.find source, b.find target with
  | .ok a, .ok z =>
    match b.connect a z with
    | .error diagnostic => [.constructionFailed source target diagnostic]
    | .ok _ => []
  | _, _ => []

end Backend

/-- What stands in the way of a reprojection behind a stage with some metadata, in the order in
which it is looked for. -/
def Reprojection.obstacles (backend : Backend) (before : Metadata) (r : Reprojection) :
    List Failure :=
  let input := r.input.getD before.reference
  let missing := coordinateDimensions.filter fun d => !before.schema.has d
  (if missing.isEmpty then [] else [.impedance (missing.map Dimension.id)]) ++
    (if input.isEmpty then [.noInputReference] else []) ++
      (backend.unknown .input input.text ++ backend.unknown .output r.output.text ++
        backend.unconnected input.text r.output.text)

/-- The text of the references that an acquisition fails for. -/
def Reprojection.blamed (backend : Backend) (before : Metadata) (r : Reprojection) : String :=
  let input := r.input.getD before.reference
  match backend.find input.text, backend.find r.output.text with
  | .error _, _ => input.text
  | .ok _, .error _ => r.output.text
  | .ok _, .ok _ => input.text ++ " -> " ++ r.output.text

namespace FilterKind

/-- The metadata of a filter with options, behind a stage with some metadata. -/
def metadata (backend : Backend) (o : Options) (before : Metadata) : FilterKind → Metadata
  | plain _ =>
    let own := o.reference "spatialreference"
    { before with
      reference := if own.isEmpty then before.reference else own
      input := .none }
  | reprojection r =>
    let input := r.input.getD before.reference
    { before with
      bounds := before.bounds.moved (backend.point? input.text r.output.text)
      reference := r.output
      input }

def obstacle? (backend : Backend) (before : Metadata) : FilterKind → Option Failure
  | plain _ => none
  | reprojection r => (r.obstacles backend before).head?

/-- The texts of the references between which a filter asks a backend for a transform. -/
def request? (before : Metadata) : FilterKind → Option (String × String)
  | plain _ => none
  | reprojection r =>
    let input := r.input.getD before.reference
    let missing := coordinateDimensions.filter fun d => !before.schema.has d
    if missing.isEmpty && !input.isEmpty then some (input.text, r.output.text) else none

end FilterKind

namespace Stage

/-- The metadata that a stage has by its chain. A filter behind no stage has none. -/
def metadata (backend : Backend) : Stage → Metadata
  | source _ o (.generated g) =>
    ⟨g.schema, g.bounds, g.total, o.reference "spatialreference", .none⟩
  | filter _ o kind previous => kind.metadata backend o (previous.metadata backend)
  | s => s.initialStatus.metadata

/-- What stands in the way of a stage itself, given the metadata of the stage before. -/
def obstacle? (backend : Backend) : Stage → Option Failure
  | source _ _ _ => none
  | filter _ _ kind previous => kind.obstacle? backend (previous.metadata backend)
  | loose _ _ kind none => some (.sourceRequired kind.typeName)
  | loose _ _ _ (some _) => some .noSuchProperty

def request? (backend : Backend) : Stage → Option (String × String)
  | filter _ _ kind previous => kind.request? (previous.metadata backend)
  | _ => none

end Stage

namespace Backend

variable {b : Backend} {source target : String} {t : Transform}

theorem head?_unconnected :
    (b.unknown .input source ++ b.unknown .output target ++ b.unconnected source target).head? =
      match b.acquire source target with
      | .error e => some e
      | .ok _ => none := by
  simp only [acquire, findFor, unknown, unconnected]
  cases b.find source with
  | error diagnostic => rfl
  | ok a =>
      cases b.find target with
      | error diagnostic => rfl
      | ok z =>
          simp only [Except.mapError]
          cases b.connect a z <;> rfl

theorem find_source_of_acquire (h : b.acquire source target = .ok t) :
    b.find source = .ok t.source := by
  unfold acquire at h
  split at h
  · cases h
  · next a ha =>
    split at h
    · cases h
    · split at h
      · cases h
      · cases h
        exact find_of_findFor ha

theorem toOption_project (h : b.acquire source target = .ok t) (p : Point) :
    (t.project p).toOption = b.point? source target p := by
  obtain ⟨htarget, operation, hconnect, hoperation⟩ := acquire_eq_ok h
  simp only [point?, find_source_of_acquire h, htarget, hconnect, Except.toOption,
    Transform.project, Transform.apply, hoperation, bind, Option.bind]
  cases operation.one p with
  | error diagnostic => rfl
  | ok q => cases hfinite : Triple.isFinite q <;> simp [hfinite]

theorem not_isReleased_of_acquire (h : b.acquire source target = .ok t) :
    t.isReleased = false := by
  obtain ⟨_, operation, _, hoperation⟩ := acquire_eq_ok h
  rw [Transform.isReleased, hoperation]
  rfl

end Backend

namespace Reprojection

theorem head?_obstacles (backend : Backend) (before : Metadata) (r : Reprojection) :
    (r.obstacles backend before).head? =
      match coordinateDimensions.filter fun d => !before.schema.has d with
      | [] =>
        if (r.input.getD before.reference).isEmpty then some .noInputReference
        else
          match backend.acquire (r.input.getD before.reference).text r.output.text with
          | .error e => some e
          | .ok _ => none
      | missing => some (.impedance (missing.map Dimension.id)) := by
  unfold Reprojection.obstacles
  dsimp only
  cases coordinateDimensions.filter fun d => !before.schema.has d with
  | cons d missing => rfl
  | nil =>
      by_cases hinput : (r.input.getD before.reference).isEmpty = true
      · simp only [hinput]
        rfl
      · simp only [hinput, ← Backend.head?_unconnected]
        rfl

theorem obstacle_cases {backend : Backend} {m : Metadata} {r : Reprojection} {e : Failure}
    (h : (r.obstacles backend m).head? = some e) :
    ((∃ missing, e = .impedance missing) ∧ (FilterKind.reprojection r).request? m = none) ∨
      (e.ofAcquisition = true ∧ e.descriptor =
        if (r.input.getD m.reference).isEmpty then (r.input.getD m.reference).text
        else r.blamed backend m) := by
  rw [head?_obstacles] at h
  cases hmissing : coordinateDimensions.filter fun d => !m.schema.has d with
  | cons d missing =>
      rw [hmissing] at h
      cases h
      refine .inl ⟨⟨_, rfl⟩, ?_⟩
      simp only [FilterKind.request?, hmissing]
      rfl
  | nil =>
      rw [hmissing] at h
      dsimp only at h
      split at h
      · next hinput =>
        cases h
        rw [if_pos hinput]
        exact .inr ⟨rfl, (String.isEmpty_iff.mp hinput).symm⟩
      · next hinput =>
        rw [if_neg hinput]
        refine .inr ?_
        unfold Reprojection.blamed
        unfold Backend.acquire Backend.findFor at h
        dsimp only
        cases hsource : backend.find (r.input.getD m.reference).text with
        | error diagnostic =>
            rw [hsource] at h
            cases h
            exact ⟨rfl, rfl⟩
        | ok a =>
            cases htarget : backend.find r.output.text with
            | error diagnostic =>
                rw [hsource, htarget] at h
                cases h
                exact ⟨rfl, rfl⟩
            | ok z =>
                rw [hsource, htarget] at h
                simp only [Except.mapError] at h
                split at h
                · next hacquire =>
                  cases h
                  split at hacquire
                  · cases hacquire
                    exact ⟨rfl, rfl⟩
                  · cases hacquire
                · cases h

end Reprojection

namespace Status

variable {backend : Backend} {before : Status} {kind : FilterKind}

theorem transformBounds_eq_moved {source target : String} {t : Transform}
    (h : backend.acquire source target = .ok t) (box : Bounds) :
    transformBounds t box = box.moved (backend.point? source target) := by
  unfold transformBounds Bounds.moved
  rw [← Backend.toOption_project h, ← Backend.toOption_project h]
  cases t.project box.minimum with
  | error e => rfl
  | ok minimum => cases t.project box.maximum <;> rfl

theorem derive_congr (own : Status) {backend' : Backend}
    (h : ∀ q, kind.request? before.metadata = some q →
      backend'.acquire q.1 q.2 = backend.acquire q.1 q.2) :
    own.derive before backend' kind = own.derive before backend kind := by
  cases kind with
  | plain p => rfl
  | reprojection r =>
      unfold derive reproject checkCoordinates
      dsimp only [inherit]
      cases hmissing : coordinateDimensions.filter fun d => !before.schema.has d with
      | cons d missing => rfl
      | nil =>
          dsimp only
          split
          · rfl
          · next hinput =>
            rw [h ((r.input.getD before.reference).text, r.output.text)]
            unfold FilterKind.request? Status.metadata
            dsimp only
            rw [hmissing, Bool.eq_false_iff.mpr hinput]
            rfl

theorem reproject_eq (own before : Status) (backend : Backend) (r : Reprojection) {m : Metadata}
    (hschema : own.schema = m.schema) (hreference : before.reference = m.reference) :
    match (r.obstacles backend m).head? with
    | some e => ∃ input, own.reproject before backend r = (.error e, { own with input })
    | none =>
      ∃ t, t.isReleased = false ∧ own.reproject before backend r =
        (.ok (),
          { own with
            bounds := own.bounds.moved
              (backend.point? (r.input.getD m.reference).text r.output.text)
            reference := r.output
            input := r.input.getD m.reference
            transform := some t }) := by
  rw [Reprojection.head?_obstacles, ← hschema]
  unfold reproject checkCoordinates
  rw [hreference]
  cases coordinateDimensions.filter fun d => !own.schema.has d with
  | cons d missing => exact ⟨own.input, rfl⟩
  | nil =>
      dsimp only
      by_cases hinput : (r.input.getD m.reference).isEmpty = true
      · rw [if_pos hinput, if_pos hinput]
        exact ⟨_, rfl⟩
      · rw [if_neg hinput, if_neg hinput]
        cases hacquire : backend.acquire (r.input.getD m.reference).text r.output.text with
        | error e => exact ⟨_, rfl⟩
        | ok t =>
            refine ⟨t, Backend.not_isReleased_of_acquire hacquire, ?_⟩
            rw [← transformBounds_eq_moved hacquire]

/-- To derive a filter fails with the first obstacle. Without any, the filter takes its metadata
from those of the stage before; one that is no reprojection needs its own reference for that. -/
theorem derive_eq (own before : Status) (backend : Backend) (kind : FilterKind) :
    match kind.obstacle? backend before.metadata with
    | some e =>
      ∃ own', own.derive before backend kind = (.error e, own') ∧
        own'.initialized = own.initialized ∧ own'.transform = own.transform
    | none =>
      ∃ own', own.derive before backend kind = (.ok (), own') ∧
        (∀ o : Options, (∀ p, kind = .plain p →
          own.reference = o.reference "spatialreference" ∧ own.input = .none) →
            own'.metadata = kind.metadata backend o before.metadata) ∧
        (∀ p, kind = .plain p → own'.transform = own.transform) ∧
        ∀ r, kind = .reprojection r → ∃ t, own'.transform = some t ∧ t.isReleased = false := by
  cases kind with
  | plain p =>
      refine ⟨own.inherit before, rfl, ?_, fun _ _ => rfl, nofun⟩
      intro o hplain
      obtain ⟨hreference, hinput⟩ := hplain p rfl
      simp only [Status.metadata, inherit, FilterKind.metadata, hreference, hinput]
  | reprojection r =>
      have hreproject := (own.inherit before).reproject_eq before backend r
        (m := before.metadata) rfl rfl
      rw [FilterKind.obstacle?]
      cases hfirst : (r.obstacles backend before.metadata).head? with
      | some e =>
          rw [hfirst] at hreproject
          obtain ⟨input, heq⟩ := hreproject
          exact ⟨_, heq, rfl, rfl⟩
      | none =>
          rw [hfirst] at hreproject
          obtain ⟨t, hopen, heq⟩ := hreproject
          exact ⟨_, heq, fun _ _ => rfl, nofun, fun _ _ => ⟨t, rfl, hopen⟩⟩

theorem derive_of_obstacle (own : Status) {e : Failure}
    (h : kind.obstacle? backend before.metadata = some e) :
    ∃ own', own.derive before backend kind = (.error e, own') ∧
      own'.initialized = own.initialized ∧ own'.transform = own.transform := by
  have hderive := own.derive_eq before backend kind
  rw [h] at hderive
  exact hderive

theorem derive_of_free (own : Status) (h : kind.obstacle? backend before.metadata = none) :
    ∃ own', own.derive before backend kind = (.ok (), own') ∧
      (∀ o : Options, (∀ p, kind = .plain p →
        own.reference = o.reference "spatialreference" ∧ own.input = .none) →
          own'.metadata = kind.metadata backend o before.metadata) ∧
      (∀ p, kind = .plain p → own'.transform = own.transform) ∧
      ∀ r, kind = .reprojection r → ∃ t, own'.transform = some t ∧ t.isReleased = false := by
  have hderive := own.derive_eq before backend kind
  rw [h] at hderive
  exact hderive

theorem derive_fst (own before : Status) (backend : Backend) (kind : FilterKind) :
    (own.derive before backend kind).1 =
      match kind.obstacle? backend before.metadata with
      | some e => .error e
      | none => .ok () := by
  cases hfirst : kind.obstacle? backend before.metadata with
  | some e =>
      obtain ⟨own', heq, _⟩ := derive_of_obstacle own hfirst
      rw [heq]
  | none =>
      obtain ⟨own', heq, _⟩ := derive_of_free own hfirst
      rw [heq]

end Status

end PointStream

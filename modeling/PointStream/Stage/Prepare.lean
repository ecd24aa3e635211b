import PointStream.Generator.Reading
import PointStream.Stage.Reproject

/-!
# Preparing stages

A stage is prepared once, and counts as initialized from then on. A filter first prepares the stage
before it, if that is still to be done, and takes over what is known about it; a reprojection then
looks at the schema, settles its input reference, acquires its transform and transforms the box. A
step that fails leaves the results of the steps before it in the status, but the stage does not
count as initialized.
-/

namespace PointStream

namespace Status

/-- Takes over what a generator was set up to make. -/
def ofGenerator (own : Status) (g : Generator) : Status :=
  { own with schema := g.schema, bounds := g.bounds, total := g.total }

/-- Takes over what is known about the stage before. A reference of one's own is kept. -/
def inherit (own before : Status) : Status :=
  { own with
    schema := before.schema
    bounds := before.bounds
    total := before.total
    reference := if own.reference.isEmpty then before.reference else own.reference }

/-- Checks that a status has the coordinates that are reprojected. -/
def checkCoordinates (own : Status) : Except Failure Unit :=
  match coordinateDimensions.filter fun d => !own.schema.has d with
  | [] => .ok ()
  | missing => .error (.impedance (missing.map Dimension.id))

/-- The box with both corners transformed, or the box itself if a corner cannot be transformed. -/
def transformBounds (t : Transform) (box : Bounds) : Bounds :=
  match t.project box.minimum with
  | .error _ => box
  | .ok minimum =>
    match t.project box.maximum with
    | .error _ => box
    | .ok maximum => ⟨minimum, maximum⟩

/-- Derives what is known about a reprojection from what it took over. -/
def reproject (own before : Status) (backend : Backend) (r : Reprojection) :
    Except Failure Unit × Status :=
  match own.checkCoordinates with
  | .error e => (.error e, own)
  | .ok () =>
    let own := { own with input := r.input.getD before.reference }
    if own.input.isEmpty then (.error .noInputReference, own)
    else
      match backend.acquire own.input.text r.output.text with
      | .error e => (.error e, own)
      | .ok t =>
        (.ok (),
          { own with
            transform := some t
            reference := r.output
            bounds := transformBounds t own.bounds })

/-- Derives what is known about a filter from what is known about the stage before it. -/
def derive (own before : Status) (backend : Backend) : FilterKind → Except Failure Unit × Status
  | .plain _ => (.ok (), own.inherit before)
  | .reprojection r => (own.inherit before).reproject before backend r

/-- The status after a derivation: it counts as initialized if the derivation succeeded. -/
def settle (derived : Except Failure Unit × Status) : Status :=
  match derived.1 with
  | .ok () => { derived.2 with initialized := true }
  | .error _ => derived.2

end Status

namespace Stage

def prepare (backend : Backend) : Stage → Statuses → Except Failure Unit × Statuses
  | source n _ kind, statuses =>
    let own := statuses.get n
    if own.initialized then (.error (.alreadyInitialized kind.typeName), statuses)
    else
      let known := match kind with
        | .generated g => own.ofGenerator g
        | .plain _ => own
      (.ok (), statuses.set n { known with initialized := true })
  | loose n _ kind given, statuses =>
    if (statuses.get n).initialized then (.error (.alreadyInitialized kind.typeName), statuses)
    else
      match given with
      | none => (.error (.sourceRequired kind.typeName), statuses)
      | some _ => (.error .noSuchProperty, statuses)
  | filter n _ kind previous, statuses =>
    if (statuses.get n).initialized then (.error (.alreadyInitialized kind.typeName), statuses)
    else
      let (result, statuses) :=
        if (statuses.get previous.number).initialized then (.ok (), statuses)
        else previous.prepare backend statuses
      match result with
      | .error e => (.error e, statuses)
      | .ok () =>
        let derived :=
          (statuses.get n).derive (statuses.get previous.number) backend kind
        (derived.1, statuses.set n (Status.settle derived))

def status (s : Stage) (statuses : Statuses) : Status :=
  statuses.get s.number

/-- The status of an initialized stage. -/
def known (s : Stage) (statuses : Statuses) : Except Failure Status :=
  let own := s.status statuses
  if own.initialized then .ok own else .error (.notInitialized s.typeName)

/-- The layout that an initialized stage gives its buffers. -/
def layout (s : Stage) (statuses : Statuses) : Except Failure Layout :=
  (s.known statuses).map fun own => ⟨own.schema, .stage s.root⟩

/-- Checks the schema of a filter for what the filter needs. -/
def checkImpedance (s : Stage) (statuses : Statuses) : Except Failure Unit :=
  match s with
  | source _ _ _ => .error .noSuchProperty
  | filter _ _ (.plain _) _ => .ok ()
  | loose _ _ (.plain _) _ => .ok ()
  | filter n _ (.reprojection _) _ => (statuses.get n).checkCoordinates
  | loose n _ (.reprojection _) _ => (statuses.get n).checkCoordinates

def isReprojection : Stage → Bool
  | filter _ _ (.reprojection _) _ => true
  | loose _ _ (.reprojection _) _ => true
  | _ => false

/-- Gives up the transform that a stage holds, if it holds one. -/
def close (s : Stage) (statuses : Statuses) : Statuses :=
  statuses.modify s.number fun own => { own with transform := none }

/-- The transform that a reprojection holds. -/
def transform (s : Stage) (statuses : Statuses) : Except Failure Transform :=
  if !s.isReprojection then .error .noSuchProperty
  else
    match (s.status statuses).transform with
    | none => .error (.noTransform s.typeName)
    | some t => .ok t

/-- Transforms a point by the transform that a reprojection holds. -/
def project (s : Stage) (statuses : Statuses) (p : Point) : Except Failure Point :=
  match s.transform statuses with
  | .error e => .error e
  | .ok t => t.project p

/-- Transforms the box of a reprojection once more. -/
def updateBounds (s : Stage) (statuses : Statuses) : Except Failure Unit × Statuses :=
  match s.transform statuses with
  | .error e => (.error e, statuses)
  | .ok t =>
    (.ok (), statuses.modify s.number fun own =>
      { own with bounds := Status.transformBounds t own.bounds })

/-- Transforms the points of a buffer by the transform that a reprojection holds. -/
def reprojectBuffer (s : Stage) (statuses : Statuses) (b : Buffer) : Except Failure Buffer :=
  match s.transform statuses with
  | .error e => .error e
  | .ok t => b.reproject t

/-- Transforms the points of a buffer in their place: the result, and the buffer after that. The
points are written back only when all of them have been transformed. -/
def reprojectInPlace (s : Stage) (statuses : Statuses) (b : Buffer) :
    Except Failure Unit × Buffer :=
  match s.reprojectBuffer statuses b with
  | .error e => (.error e, b)
  | .ok b => (.ok (), b)

/-- Reads generated points into a buffer, whether or not the stage is initialized. -/
def readPoints (s : Stage) (b : Buffer) (start : Value) : Except Failure (Amount × Buffer) :=
  match s with
  | source _ _ (.generated g) => start.number.bind (g.readAt b)
  | _ => .error .noSuchProperty

/-- Reads generated points into a buffer in its place: the result, and the buffer after that. The
points are written only when all of them have been made. -/
def readInPlace (s : Stage) (b : Buffer) (start : Value) : Except Failure Amount × Buffer :=
  match s.readPoints b start with
  | .error e => (.error e, b)
  | .ok (n, filled) => (.ok n, filled)

end Stage

end PointStream

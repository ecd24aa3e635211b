import PointStream.Stage.Prepare

/-!
# Cursors

A cursor walks over the points of a stage. Over a source it holds the index of the next point; over
a reprojection it holds a cursor over the stage before, from which it draws, and an index of its
own, which it keeps in step. Cursors share nothing: what one does, no other sees.
-/

namespace PointStream

/-- A cursor over generated points. -/
structure SourceCursor where
  stage : Stage
  generator : Generator
  index : Amount

namespace SourceCursor

def advance (c : SourceCursor) (n : Number) : Except Failure SourceCursor :=
  match c.index.add n with
  | .error fault => .error (.number fault)
  | .ok index => .ok { c with index }

/-- Moves the cursor to a position, of which the whole part counts. -/
def seek (c : SourceCursor) (position : Number) : Except Failure Int × SourceCursor :=
  if position.lt (.whole 0) then (.error (.negativePosition position), c)
  else
    match position.toInt with
    | .error fault => (.error (.number fault), c)
    | .ok n => (.ok n, { c with index := .whole n.toNat })

/-- Reads into a buffer and sets its count; a read that fails changes nothing. -/
def pull (c : SourceCursor) (b : Buffer) : Except Failure Amount × SourceCursor × Buffer :=
  match c.generator.readAt b c.index.number with
  | .error e => (.error e, c, b)
  | .ok (n, filled) =>
    match c.advance n.number with
    | .error e => (.error e, c, filled.holding n.wholePart)
    | .ok moved => (.ok n, moved, filled.holding n.wholePart)

/-- Passes over a number of points, but not beyond the last one; the result is how many. -/
def skip (c : SourceCursor) (count : Number) : Except Failure Number × SourceCursor :=
  if count.lt (.whole 0) then (.error (.negativeSkip count), c)
  else
    match c.index.remaining c.generator.total with
    | .error fault => (.error (.number fault), c)
    | .ok remaining =>
      let skipped := if remaining.lt count then remaining else count
      match c.advance skipped with
      | .error e => (.error e, c)
      | .ok moved => (.ok skipped, moved)

def describe (c : SourceCursor) : String :=
  "FauxRandomIterator(stage=" ++ c.stage.describe ++ ", index=" ++ c.index.number.text ++ ")"

end SourceCursor

/-- A cursor over the points of a stage in order. -/
inductive Cursor where
  | source (c : SourceCursor)
  | reprojected (stage : Stage) (index : Amount) (inner : Cursor)

namespace Cursor

def stage : Cursor → Stage
  | source c => c.stage
  | reprojected s _ _ => s

def index : Cursor → Amount
  | source c => c.index
  | reprojected _ index _ => index

def atEnd : Cursor → Bool
  | source c => (Number.whole c.generator.total).le c.index.number
  | reprojected _ _ inner => inner.atEnd

/-- Reads points into a buffer. A reprojection reads from the stage before and transforms what it
got; points that cannot be transformed are spent all the same. -/
def read (statuses : Statuses) : Cursor → Buffer → Except Failure Amount × Cursor × Buffer
  | source c, b =>
    let (result, c, b) := c.pull b
    (result, source c, b)
  | reprojected s _ inner, b =>
    let (result, inner, b) := inner.read statuses b
    let moved := reprojected s inner.index inner
    match result with
    | .error e => (.error e, moved, b)
    | .ok n =>
      match s.reprojectBuffer statuses b with
      | .error e => (.error e, moved, b)
      | .ok b => (.ok n, moved, b.holding n.wholePart)

/-- Passes over a number of points, but not beyond the last one; the result is how many. -/
def skip (count : Number) : Cursor → Except Failure Number × Cursor
  | source c =>
    let (result, c) := c.skip count
    (result, source c)
  | reprojected s index inner =>
    if count.lt (.whole 0) then (.error (.negativeSkip count), reprojected s index inner)
    else
      match inner.skip count with
      | (.error e, inner) => (.error e, reprojected s index inner)
      | (.ok skipped, inner) =>
        match index.add skipped with
        | .error fault => (.error (.number fault), reprojected s index inner)
        | .ok moved => (.ok skipped, reprojected s moved inner)

def describe (c : Cursor) : String :=
  let kind := match c with
    | source _ => "FauxSequentialIterator"
    | reprojected _ _ _ => "ReprojectionSequentialIterator"
  kind ++ "(stage=" ++ c.stage.describe ++ ", index=" ++ c.index.number.text ++ ")"

end Cursor

namespace Stage

/-- Checks that a stage is initialized and can be visited in a certain way. -/
def checkVisit (s : Stage) (visit : Visit) (statuses : Statuses) : Except Failure Unit := do
  let _ ← s.known statuses
  let supported ← s.supports visit
  if !supported then throw (.unsupportedVisit s.typeName visit)

/-- A cursor at the first point of a stage. -/
def cursor (statuses : Statuses) : Stage → Except Failure Cursor
  | source n o kind => do
    (source n o kind).checkVisit .sequential statuses
    match kind with
    | .generated g => pure (.source ⟨source n o kind, g, .whole 0⟩)
    | .plain _ => throw .notImplemented
  | filter n o kind previous => do
    (filter n o kind previous).checkVisit .sequential statuses
    match kind with
    | .reprojection _ => do
      let inner ← previous.cursor statuses
      pure (.reprojected (filter n o kind previous) (.whole 0) inner)
    | .plain _ => throw .notImplemented
  | loose n o kind given => do
    (loose n o kind given).checkVisit .sequential statuses
    throw .notImplemented

/-- A cursor that can be moved to any position, at the first point of a stage. -/
def randomCursor (s : Stage) (statuses : Statuses) : Except Failure SourceCursor := do
  s.checkVisit .random statuses
  match s with
  | source _ _ (.generated g) => pure ⟨s, g, .whole 0⟩
  | _ => throw .notImplemented

end Stage

end PointStream

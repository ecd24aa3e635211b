import PointStream.Cursor
import PointStream.Pipeline.Basic

namespace PointStream

/-- How far a run has come. -/
inductive Phase where
  | fresh
  /-- A buffer with a number of points was delivered. -/
  | delivered (cursor : Cursor) (layout : Layout) (points : Nat)
  | ended

structure Run where
  pipeline : Pipeline
  chunk : Value
  phase : Phase

namespace Run

/-- The run that has not been asked for anything. -/
def start (pipeline : Pipeline) (chunk : Value) : Run :=
  ⟨pipeline, chunk, .fresh⟩

def finish (r : Run) : Run :=
  { r with phase := .ended }

/-- The size of the chunks, which must be a positive number. -/
def chunkSize (r : Run) : Except Failure Number :=
  match r.chunk.number? with
  | none => .error .wrongKind
  | some n => if n.le (.whole 0) then .error (.chunkSize n) else .ok n

/-- What a run needs to draw points: a cursor over the last stage, and its layout. -/
def outset (p : Pipeline) (w : World) : Except Failure (Cursor × Layout) := do
  let s ← p.last
  let cursor ← s.cursor w.statuses
  let layout ← s.layout w.statuses
  pure (cursor, layout)

/-- Draws one buffer. A buffer without points ends the run. -/
def draw (r : Run) (w : World) (chunk : Number) (cursor : Cursor) (layout : Layout) :
    Except Failure (Option Buffer) × World × Run :=
  match Buffer.make layout chunk with
  | .error e => (.error e, w, r.finish)
  | .ok b =>
    match cursor.read w.statuses b with
    | (.error e, _, _) => (.error e, w, r.finish)
    | (.ok n, cursor, b) =>
      let points := n.wholePart
      if points = 0 then (.ok none, w, r.finish)
      else
        let number := r.pipeline.number
        (.ok (some b), w.setCount number (w.count number + points),
          { r with phase := .delivered cursor layout points })

/-- Begins a run: checks the size of the chunks, prepares the pipeline and draws. -/
def enter (backend : Backend) (r : Run) (w : World) :
    Except Failure (Option Buffer) × World × Run :=
  match r.chunkSize with
  | .error e => (.error e, w, r.finish)
  | .ok chunk =>
    match r.pipeline.prepare backend w with
    | (.error e, w) => (.error e, w, r.finish)
    | (.ok (), w) =>
      let w := w.setCount r.pipeline.number 0
      match outset r.pipeline w with
      | .error e => (.error e, w, r.finish)
      | .ok (cursor, layout) => r.draw w chunk cursor layout

/-- The next buffer of a run, none at its end. -/
def next (backend : Backend) (r : Run) (w : World) :
    Except Failure (Option Buffer) × World × Run :=
  match r.phase with
  | .fresh => r.enter backend w
  | .ended => (.ok none, w, r)
  | .delivered cursor layout points =>
    match r.chunkSize with
    | .error e => (.error e, w, r.finish)
    | .ok chunk =>
      if (Number.whole points).lt chunk then (.ok none, w, r.finish)
      else r.draw w chunk cursor layout

/-- Draws the buffers of a run until it ends, at most a given number of times. -/
def drain (backend : Backend) : Nat → Run → World → Except Failure Unit × World
  | 0, _, w => (.ok (), w)
  | fuel + 1, r, w =>
    match r.next backend w with
    | (.error e, w, _) => (.error e, w)
    | (.ok none, w, _) => (.ok (), w)
    | (.ok (some _), w, r) => drain backend fuel r w

end Run

/-- The number of points that the source at the head of a chain makes. -/
def Stage.sourceTotal : Stage → Nat
  | source _ _ (.generated g) => g.total
  | source _ _ (.plain _) => 0
  | filter _ _ _ previous => previous.sourceTotal
  | loose _ _ _ _ => 0

/-- Draws all points of a pipeline; the result is their number. Every buffer holds a point at
least, so there are no more buffers than points. -/
def Pipeline.execute (backend : Backend) (p : Pipeline) (chunk : Value) (w : World) :
    Except Failure Nat × World :=
  let most := ((p.stages.getLast?).map Stage.sourceTotal).getD 0
  match Run.drain backend (most + 1) (Run.start p chunk) w with
  | (.error e, w) => (.error e, w)
  | (.ok (), w) => (.ok (w.count p.number), w)

end PointStream

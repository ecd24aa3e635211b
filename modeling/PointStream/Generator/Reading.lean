import PointStream.Buffer
import PointStream.Generator.Basic
import PointStream.Number.Amount

namespace PointStream

/-- Replaces the first cells of a dimension, if the buffer has the dimension. -/
def Buffer.fillDimension (b : Buffer) (d : Dimension) (n : Nat) (f : Nat → UInt64) : Buffer :=
  match b.schema.columnOf? d with
  | none => b
  | some column => b.fillColumn column n f

/-- Writes points and their global indices into the first rows. -/
def Buffer.putGenerated (b : Buffer) (indices : List UInt64) (ps : List Point) : Buffer :=
  let points := ps.toArray
  let times := indices.toArray
  let n := indices.length
  let coordinate (axis : Point → Double) (row : Nat) : UInt64 :=
    (axis (points.getD row (Triple.all 0))).bits
  (((b.fillDimension .xF64 n (coordinate Triple.x)).fillDimension
    .yF64 n (coordinate Triple.y)).fillDimension
    .zF64 n (coordinate Triple.z)).fillDimension
    .timeU64 n fun row => times.getD row 0

namespace Generator

/-- How many points a buffer of a given capacity takes from a start on. -/
def available (g : Generator) (capacity : Nat) (start : Int) : Nat :=
  (min (capacity : Int) (g.total - start)).toNat

/-- Makes the points for a row of indices and writes them into a buffer. -/
def write (g : Generator) (b : Buffer) (indices : List UInt64) : Except Failure Buffer :=
  match g.points indices with
  | .error e => .error e
  | .ok ps => .ok (b.putGenerated indices ps)

/-- Reads points into a buffer from a start on; the result is their number and the buffer. -/
def read (g : Generator) (b : Buffer) (start : Int) : Except Failure (Nat × Buffer) :=
  let count := g.available b.capacity start
  if count = 0 then .ok (0, b)
  else
    match indices start count with
    | .error e => .error e
    | .ok is => (g.write b is).map fun filled => (count, filled)

/-- Whether a schema has a dimension that generated points are written to. -/
def writesTo (s : Schema) : Bool :=
  [Dimension.xF64, .yF64, .zF64, .timeU64].any s.has

/-- How many points a buffer of a given capacity takes when a number of them is left, which is a
double. Where less is left than the buffer takes, the double is the answer. -/
def availableOf (capacity : Nat) (left : Double) : Amount :=
  if (Number.real left).lt (.whole capacity) then
    if (Number.real left).le (.whole 0) then .whole 0 else .real left
  else .whole capacity

/-- How many indices lie in the stretch of a given size behind a double: one for every whole step
that begins in it. -/
def stepsFrom (start : Double) (size : Amount) : Except NumberFault Nat := do
  let stop := start + (← size.toDouble)
  match (stop - start).ceiling? with
  | some n => pure n.toNat
  | none => throw .unreadable

/-- The whole part of a double as the word of an index. -/
def indexWord (x : Double) : Except NumberFault UInt64 := do
  let n ← x.toInt
  if n < 0 ∨ 2 ^ 64 ≤ n then throw .outOfRange
  pure (UInt64.ofNat n.toNat)

/-- A number of indices that start at a double: the whole parts of the start and of its successor,
and on in steps of their distance. -/
def indicesFrom (start : Double) : Nat → Except NumberFault (List UInt64)
  | 0 => pure []
  | 1 => do pure [← indexWord start]
  | count => do
    let first ← indexWord start
    let second ← indexWord (start + 1)
    pure ((List.range count).map fun r => first + UInt64.ofNat r * (second - first))

/-- A row of things for a number of places: one for each place, or a single one for all. -/
def spread? {α : Type} (places : Nat) : List α → Option (List α)
  | [x] => some (List.replicate places x)
  | xs => if xs.length = places then some xs else none

theorem length_of_spread? {α : Type} {places : Nat} {xs ys : List α}
    (h : spread? places xs = some ys) : ys.length = places := by
  unfold spread? at h
  split at h
  · simp only [Option.some.injEq] at h
    simp [← h]
  · split at h
    · simp_all
    · simp at h

/-- Reads points into a buffer from a start that is a double. A buffer that has columns to write to
takes the points only if their number is whole and the points and indices can be spread over it. -/
def readFrom (g : Generator) (b : Buffer) (start : Double) : Except Failure (Amount × Buffer) := do
  let total ← (Double.ofInt? g.total).mapError Failure.number
  match availableOf b.capacity (total - start) with
  | .whole 0 => pure (.whole 0, b)
  | count => do
    let steps ← (stepsFrom start count).mapError Failure.number
    let indices ← (indicesFrom start steps).mapError Failure.number
    let points ← g.points indices
    if !writesTo b.schema then pure (count, b)
    else
      match count with
      | .real _ => throw .wrongKind
      | .whole n =>
        match spread? n indices, spread? n points with
        | some indices, some points => pure (count, b.putGenerated indices points)
        | _, _ => throw .misfit

/-- Reads points into a buffer from any start. -/
def readAt (g : Generator) (b : Buffer) : Number → Except Failure (Amount × Buffer)
  | .whole n => (g.read b n).map fun (count, filled) => (.whole count, filled)
  | .truth t => (g.read b (if t then 1 else 0)).map fun (count, filled) => (.whole count, filled)
  | .real x => g.readFrom b x

end Generator

end PointStream

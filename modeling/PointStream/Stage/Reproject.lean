import PointStream.Bounds.Extent
import PointStream.Buffer
import PointStream.Stage.Basic

namespace PointStream

/-- The dimensions that are reprojected. -/
def coordinateDimensions : List Dimension :=
  [.xF64, .yF64, .zF64]

/-- Transforms a point; the failure names the point. -/
def Transform.project (t : Transform) (p : Point) : Except Failure Point :=
  match t.apply p with
  | .ok q => .ok q
  | .error e => .error (.pointProjection p e.diagnostic)

/-- The failure of a row of points: that of the first point that fails on its own, else that of
the row. -/
def Transform.rowFailure (t : Transform) (diagnostic : String) : List Point → Failure
  | [] => .bufferProjection diagnostic
  | p :: ps =>
    match t.project p with
    | .ok _ => t.rowFailure diagnostic ps
    | .error e => e

namespace Buffer

def coordinateColumns (b : Buffer) : Except Failure (Triple Nat) :=
  (⟨.xF64, .yF64, .zF64⟩ : Triple Dimension).mapM b.schema.columnOf

/-- The point in a row, by the columns of its coordinates. -/
def pointIn (b : Buffer) (columns : Triple Nat) (row : Nat) : Point :=
  columns.map fun column => ⟨b.cell column row⟩

def pointsIn (b : Buffer) (columns : Triple Nat) : List Point :=
  (List.range b.count).map (b.pointIn columns)

/-- Replaces the points in the first rows. -/
def putPoints (b : Buffer) (columns : Triple Nat) (ps : List Point) : Buffer :=
  let points := ps.toArray
  let coordinate (axis : Point → Double) (row : Nat) : UInt64 :=
    (axis (points.getD row (Triple.all 0))).bits
  ((b.fillColumn columns.x ps.length (coordinate Triple.x)).fillColumn
    columns.y ps.length (coordinate Triple.y)).fillColumn
    columns.z ps.length (coordinate Triple.z)

/-- Transforms the points of a buffer. A buffer without points needs no coordinates. -/
def reproject (b : Buffer) (t : Transform) : Except Failure Buffer :=
  if b.count = 0 then .ok b
  else
    match b.coordinateColumns with
    | .error e => .error e
    | .ok columns =>
      let points := b.pointsIn columns
      match t.applyAll points with
      | .ok results => .ok (b.putPoints columns results)
      | .error e => .error (t.rowFailure e.diagnostic points)

/-- How the doubles of a column lie for a comparison. They stay in their rows if each of them starts
at a multiple of eight bytes; otherwise they are copied side by side for it. -/
def spacing (b : Buffer) (column : Nat) : Bounds.Spacing :=
  if b.schema.byteSize % 8 = 0 ∧ b.schema.offsets.getD column 0 % 8 = 0 then .spaced else .copied

/-- The doubles of a column in the rows that hold points. -/
def doublesIn (b : Buffer) (column : Nat) : List Double :=
  let cells := b.columns.get column
  (List.range b.count).map fun row => ⟨cells.get row⟩

def bounds (b : Buffer) : Except Failure Bounds :=
  if b.count = 0 then .error .emptyBuffer
  else
    match b.coordinateColumns with
    | .error e => .error e
    | .ok columns =>
      match Bounds.around? (columns.map fun column => (b.spacing column, b.doublesIn column)) with
      | some box => .ok box
      | none => .error .misfit

end Buffer

end PointStream

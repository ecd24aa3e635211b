import PointStream.Cell
import PointStream.ElementType
import PointStream.Table

namespace PointStream

/-- The cells of one dimension, by row. -/
abbrev Column := Table UInt64

def Column.zeros : Column :=
  Table.constant 0

/-- A store of points with a fixed capacity. -/
structure Buffer where
  layout : Layout
  capacity : Nat
  columns : Table Column
  count : Nat
  count_le : count ≤ capacity

namespace Buffer

/-- The buffer of a given capacity without points. -/
def blank (layout : Layout) (capacity : Nat) : Buffer :=
  ⟨layout, capacity, Table.constant Column.zeros, 0, Nat.zero_le _⟩

/-- The buffer without points whose capacity is the whole part of a number. Neither the capacity
nor the number of bytes may reach the range of addresses. -/
def make (layout : Layout) (capacity : Number) : Except Failure Buffer :=
  if capacity.lt (.whole 0) then .error (.negativeCapacity capacity)
  else
    match capacity.toInt with
    | .error fault => .error (.number fault)
    | .ok n =>
      if 2 ^ 63 ≤ n ∨ 2 ^ 63 ≤ n * layout.schema.byteSize then .error .misfit
      else .ok (blank layout n.toNat)

def schema (b : Buffer) : Schema :=
  b.layout.schema

def cell (b : Buffer) (column row : Nat) : UInt64 :=
  (b.columns.get column).get row

def modifyColumn (b : Buffer) (column : Nat) (f : Column → Column) : Buffer :=
  { b with columns := b.columns.modify column f }

def setCell (b : Buffer) (column row : Nat) (w : UInt64) : Buffer :=
  b.modifyColumn column fun c => c.set row w

def fillColumn (b : Buffer) (column n : Nat) (f : Nat → UInt64) : Buffer :=
  b.modifyColumn column fun c => c.fill n f

def withCount (b : Buffer) (n : Nat) (h : n ≤ b.capacity) : Buffer :=
  { b with count := n, count_le := h }

/-- The buffer with the count of points that was written to it, at most its capacity. -/
def holding (b : Buffer) (n : Nat) : Buffer :=
  b.withCount (min n b.capacity) (Nat.min_le_right n b.capacity)

/-- Sets the count of points to the whole part of a number within the capacity. -/
def setCount (b : Buffer) (n : Number) : Except Failure Buffer :=
  if (Number.whole 0).le n && n.le (.whole b.capacity) then
    match n.toInt with
    | .error fault => .error (.number fault)
    | .ok k =>
      if h : k.toNat ≤ b.capacity then .ok (b.withCount k.toNat h)
      else .error (.pointCount n b.capacity)
  else .error (.pointCount n b.capacity)

/-- The index that a value gives to a sequence. -/
def indexOf : Value → Except Failure Int
  | .whole n => .ok n
  | .truth b => .ok (if b then 1 else 0)
  | _ => .error .wrongKind

/-- The place of a dimension in the layout, and the dimension, by an index that may count from the
end. -/
def columnAt (b : Buffer) (index : Int) : Except Failure (Nat × Dimension) :=
  match placeOfIndex? b.schema.size index with
  | none => .error .noSuchIndex
  | some column =>
    match b.schema.dimensions[column]? with
    | none => .error .noSuchIndex
    | some d => .ok (column, d)

/-- Checks the type that a field is asked for, if one is given: a text spells it, and what lists no
parts is the type without parts. -/
def checkType (index : Number) (d : Dimension) : Value → Except Failure Unit
  | .null => .ok ()
  | .text s =>
    match ElementType.ofText? s with
    | none => .error .wrongKind
    | some t =>
      if t = .ofStorage d.storage then .ok ()
      else .error (.fieldType index d.storage.name t.name)
  | .list [] | .record [] => .error (.fieldType index d.storage.name ElementType.empty.name)
  | _ => .error .wrongKind

/-- The rows that a point index stands for. -/
inductive Selection where
  | row (n : Nat)
  | all
  | nothing
deriving DecidableEq, Repr

/-- A field of a buffer: its column, its rows and its dimension. -/
structure Field where
  column : Nat
  selection : Selection
  dimension : Dimension

/-- The rows that a point index within the capacity stands for: a number for one row, a truth value
for all rows or none. A double is no index. -/
def select : Number → Except Failure Selection
  | .whole n => .ok (.row n.toNat)
  | .truth true => .ok .all
  | .truth false => .ok .nothing
  | .real _ => .error .noSuchIndex

/-- The field at a point index and a dimension index. The point index is checked first, then the
dimension index, then the type. -/
def field (b : Buffer) (point index type : Value) : Except Failure Field := do
  let position ← point.number
  if !((Number.whole 0).le position && position.lt (.whole b.capacity)) then
    throw (.pointIndex position b.capacity)
  let place ← indexOf index
  let (column, d) ← b.columnAt place
  checkType ((index.number?).getD (.whole place)) d type
  let selection ← select position
  pure ⟨column, selection, d⟩

/-- What a field holds: a single value, or lists of the values of all rows. -/
inductive Content where
  | one (v : Scalar)
  | lists (columns : List (List Scalar))

def valuesIn (b : Buffer) (column : Nat) (s : Storage) : List Scalar :=
  let cells := b.columns.get column
  (List.range b.capacity).map fun row => s.read (cells.get row)

def getField (b : Buffer) (point index type : Value) : Except Failure (Dimension × Content) := do
  let f ← b.field point index type
  let content : Content := match f.selection with
    | .row n => .one (f.dimension.storage.read (b.cell f.column n))
    | .all => .lists [b.valuesIn f.column f.dimension.storage]
    | .nothing => .lists []
  pure (f.dimension, content)

/-- The words for all rows when a list of words is given for them: one for each row, or a single
one for all. -/
def spread (capacity : Nat) (words : List UInt64) : Except Failure (List UInt64) :=
  if words.length = capacity then .ok words
  else
    match words with
    | [w] => .ok (List.replicate capacity w)
    | _ => .error .misfit

/-- How deeply the lists in a value for all rows may be nested. -/
def deepestNesting : Nat := 64

/-- The words for all rows that a value gives: a single value gives one word for all, and a list one
for each, perhaps inside other lists that hold nothing else. Lists of unequal lengths are refused at
once, and lists that do not fit the rows after every item has been converted. -/
def rowWords (s : Storage) (capacity : Nat) (v : Value) : Except Failure (List UInt64) :=
  match v.extents? with
  | none => .error .misfit
  | some extents => do
    if deepestNesting < extents.length then throw .misfit
    let words ← v.leaves.mapM s.write
    if extents.dropLast.all (· == 1) then spread capacity words else throw .misfit

def setField (b : Buffer) (point index value type : Value) : Except Failure Buffer := do
  let f ← b.field point index type
  let s := f.dimension.storage
  match f.selection with
  | .row n => do
    let w ← s.write value
    pure (b.setCell f.column n w)
  | .all => do
    let words := (← rowWords s b.capacity value).toArray
    pure (b.fillColumn f.column b.capacity fun row => words.getD row 0)
  | .nothing => do
    let _ ← rowWords s b.capacity value
    pure b

def columnValues (b : Buffer) (index : Value) : Except Failure (List Scalar) := do
  let place ← indexOf index
  let (column, d) ← b.columnAt place
  pure (b.valuesIn column d.storage)

/-- Stores values in consecutive rows of a column, up to the first value that cannot be stored. -/
def storeRows (b : Buffer) (column row : Nat) (s : Storage) :
    List Value → Except Failure Unit × Buffer
  | [] => (.ok (), b)
  | v :: vs =>
    match s.write v with
    | .error e => (.error e, b)
    | .ok w => (b.setCell column row w).storeRows column (row + 1) s vs

/-- The rows between two bounds that may count from the end: the first one and their number. -/
def rowsBetween (capacity : Nat) (start stop : Int) : Nat × Nat :=
  let clamp (i : Int) : Nat :=
    let fromStart := if i < 0 then i + capacity else i
    min fromStart.toNat capacity
  (clamp start, clamp stop - clamp start)

/-- Stores the items of a list in rows of a column; a list is no item. As many rows must be there as
there are items; only a single item may be given where no row is there, and is dropped. -/
def storeList (b : Buffer) (column row rows : Nat) (s : Storage) (items : List Value) :
    Except Failure Unit × Buffer :=
  if items.any Value.isList then (.error .misfit, b)
  else if rows = items.length then b.storeRows column row s items
  else
    match items.mapM s.write with
    | .error e => (.error e, b)
    | .ok words => (if words.length = 1 then .ok () else .error .misfit, b)

/-- Stores values in the rows of a column from a start on, one value in each row. -/
def setColumn (b : Buffer) (index start : Value) (items : List Value) :
    Except Failure Unit × Buffer :=
  match (do
    let place ← indexOf index
    let (column, d) ← b.columnAt place
    let first ← indexOf start
    pure (column, d.storage, rowsBetween b.capacity first (first + items.length))) with
  | .error e => (.error e, b)
  | .ok (column, s, row, rows) => b.storeList column row rows s items

/-- The words of a dimension in the rows that hold points. -/
def itemWords (b : Buffer) (d : Dimension) : Except Failure (List UInt64) := do
  let column ← b.schema.columnOf d
  let cells := b.columns.get column
  pure ((List.range b.count).map cells.get)

/-- The values of a dimension in the rows that hold points. -/
def item (b : Buffer) (d : Dimension) : Except Failure (List Scalar) := do
  let words ← b.itemWords d
  pure (words.map d.storage.read)

def rowValues (b : Buffer) (row : Nat) : List Scalar :=
  b.schema.dimensions.zipIdx.map fun (d, column) => d.storage.read (b.cell column row)

/-- The rows from a start on, up to a length, of those that hold points. A negative start counts from
the end, and so does a negative length from the end of the rows from the start on. Without a start
they begin with the first row, and without a length they go on to the last. -/
def rows (b : Buffer) (start length : Option Int) : List (List Scalar) :=
  let (first, left) := rowsBetween b.count (start.getD 0) b.count
  let (_, n) := rowsBetween left 0 (length.getD left)
  (List.range n).map fun i => b.rowValues (first + i)

def rowBytes (b : Buffer) (row : Nat) : List UInt8 :=
  b.schema.dimensions.zipIdx.flatMap fun (d, column) => d.storage.bytes (b.cell column row)

/-- The bytes of the rows that hold points, row by row. -/
def bytes (b : Buffer) : List UInt8 :=
  (List.range b.count).flatMap b.rowBytes

/-- The number of points, grouped by thousands, and the layout of a buffer in its description. -/
def describe (b : Buffer) : String :=
  "PointBuffer(" ++ Text.groupedText b.count ++ "/" ++ Text.groupedText b.capacity
    ++ " points, " ++ Text.natText b.schema.byteSize ++ " bytes/point)"

end Buffer

end PointStream

import PointStream.Dimension
import PointStream.Text.DecimalDigit

namespace PointStream

/-- The place in a list of a given length that an index names. A negative index counts from the
end. -/
def placeOfIndex? (length : Nat) (index : Int) : Option Nat :=
  if 0 ≤ index then
    if index < length then some index.toNat else none
  else if 0 ≤ index + length then some (index + length).toNat
  else none

/-- An ordered list of dimensions, each at most once. -/
structure Schema where
  dimensions : List Dimension
  nodup : dimensions.Nodup
deriving DecidableEq

namespace Schema

/-- The first dimension of a list that stands in it, or among some dimensions before it, a second
time. -/
def firstRepeated? (before : List Dimension) : List Dimension → Option Dimension
  | [] => none
  | d :: ds => if d ∈ before then some d else firstRepeated? (d :: before) ds

theorem nodup_of_firstRepeated?_eq_none {before ds : List Dimension}
    (h : firstRepeated? before ds = none) : ds.Nodup ∧ ∀ d ∈ ds, d ∉ before := by
  induction ds generalizing before with
  | nil => simp
  | cons d ds ih =>
    simp only [firstRepeated?] at h
    split at h
    · cases h
    · next hd =>
      obtain ⟨hnodup, hfresh⟩ := ih h
      refine ⟨List.nodup_cons.2 ⟨fun hmem => hfresh d hmem (List.mem_cons_self ..), hnodup⟩, ?_⟩
      intro e he
      rcases List.mem_cons.1 he with rfl | hmem
      · exact hd
      · exact fun hb => hfresh e hmem (List.mem_cons_of_mem _ hb)

/-- The schema of a list of dimensions, or the first dimension that the list repeats. -/
def ofList? (ds : List Dimension) : Except Dimension Schema :=
  match h : firstRepeated? [] ds with
  | some d => .error d
  | none => .ok ⟨ds, (nodup_of_firstRepeated?_eq_none h).1⟩

def empty : Schema :=
  ⟨[], List.nodup_nil⟩

instance : Inhabited Schema :=
  ⟨empty⟩

/-- The schema of points that nothing else is said about: coordinates and time. -/
def standard : Schema :=
  ⟨[.xF64, .yF64, .zF64, .timeU64], by decide⟩

def size (s : Schema) : Nat :=
  s.dimensions.length

def has (s : Schema) (d : Dimension) : Bool :=
  s.dimensions.contains d

def columnOf? (s : Schema) (d : Dimension) : Option Nat :=
  s.dimensions.findIdx? (· == d)

/-- The dimension at an index, which may count from the end. -/
def dimensionAt? (s : Schema) (index : Int) : Option Dimension :=
  (placeOfIndex? s.size index).bind fun place => s.dimensions[place]?

def ids (s : Schema) : List String :=
  s.dimensions.map Dimension.id

def describe (s : Schema) : String :=
  "Schema([" ++ ", ".intercalate s.ids ++ "])"

/-- The offsets of dimensions that are packed from a given byte on. -/
def offsetsFrom (start : Nat) : List Dimension → List Nat
  | [] => []
  | d :: ds => start :: offsetsFrom (start + d.width) ds

/-- The offset of every dimension within a point. -/
def offsets (s : Schema) : List Nat :=
  offsetsFrom 0 s.dimensions

def byteSize (s : Schema) : Nat :=
  s.dimensions.foldr (fun d n => d.width + n) 0

/-- The offset of the dimension at an index, which may count from the end. -/
def offsetAt? (s : Schema) (index : Int) : Option Nat :=
  (placeOfIndex? s.size index).bind fun place => s.offsets[place]?

/-- The identifier of the dimension at an index, which may count from the end. -/
def fieldAt? (s : Schema) (index : Int) : Option String :=
  (placeOfIndex? s.size index).bind fun place => s.ids[place]?

end Schema

/-- Where a layout comes from: a source stage, or a schema that belongs to none. Either has a
number. -/
inductive Origin where
  | stage (number : Nat)
  | free (number : Nat)
deriving DecidableEq, Repr

/-- The layout of a schema. All layouts that a source stage gives, directly or through the filters
behind it, are one and the same: they have the same origin. -/
structure Layout where
  schema : Schema
  origin : Origin

def Layout.describe (l : Layout) : String :=
  "SchemaLayout(" ++ Text.natText l.schema.size ++ " dims, " ++ Text.natText l.schema.byteSize
    ++ " bytes/point)"

end PointStream

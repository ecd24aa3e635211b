import PointStream.Dimension
import PointStream.Text.DecimalDigit

namespace PointStream

/-- A type of values, known by its name. -/
structure ElementType where
  name : String
deriving DecidableEq, Repr

namespace ElementType

/-- The element type of values that have no parts. -/
def empty : ElementType :=
  ⟨"[]"⟩

def ofStorage (s : Storage) : ElementType :=
  ⟨s.name⟩

/-- A number type: the letter of its kind, its width in bytes and its name. -/
structure NumberType where
  kind : Char
  width : Nat
  name : String

def numberTypes : List NumberType :=
  [⟨'f', 2, "float16"⟩, ⟨'f', 4, "float32"⟩, ⟨'f', 8, "float64"⟩, ⟨'f', 16, "float128"⟩,
    ⟨'i', 1, "int8"⟩, ⟨'i', 2, "int16"⟩, ⟨'i', 4, "int32"⟩, ⟨'i', 8, "int64"⟩,
    ⟨'u', 1, "uint8"⟩, ⟨'u', 2, "uint16"⟩, ⟨'u', 4, "uint32"⟩, ⟨'u', 8, "uint64"⟩,
    ⟨'c', 8, "complex64"⟩, ⟨'c', 16, "complex128"⟩, ⟨'c', 32, "complex256"⟩,
    ⟨'b', 1, "bool"⟩]

/-- The letters that stand for a number type, with its name. -/
def letters : List (Char × String) :=
  [('e', "float16"), ('f', "float32"), ('d', "float64"), ('g', "float128"), ('b', "int8"),
    ('h', "int16"), ('i', "int32"), ('l', "int64"), ('q', "int64"), ('p', "int64"),
    ('B', "uint8"), ('H', "uint16"), ('I', "uint32"), ('L', "uint64"), ('Q', "uint64"),
    ('P', "uint64"), ('F', "complex64"), ('D', "complex128"), ('G', "complex256"), ('?', "bool")]

/-- Names that mean an element type of another name. -/
def otherNames : List (String × String) :=
  [("half", "float16"), ("single", "float32"), ("double", "float64"), ("float", "float64"),
    ("longdouble", "float128"), ("byte", "int8"), ("short", "int16"), ("intc", "int32"),
    ("int", "int64"), ("long", "int64"), ("longlong", "int64"), ("intp", "int64"),
    ("ubyte", "uint8"), ("ushort", "uint16"), ("uintc", "uint32"), ("uint", "uint64"),
    ("ulong", "uint64"), ("ulonglong", "uint64"), ("uintp", "uint64"), ("csingle", "complex64"),
    ("cdouble", "complex128"), ("complex", "complex128"), ("clongdouble", "complex256"),
    ("object", "object"), ("O", "object"), ("str", "<U0"), ("U", "<U0"), ("bytes", "|S0"),
    ("S", "|S0"), ("void", "|V0"), ("V", "|V0")]

/-- The number type that a short spelling without a byte order names. -/
def ofCode? : List Char → Option NumberType
  | [c] =>
    (letters.lookup c).bind fun name => numberTypes.find? fun t => t.name == name
  | kind :: digits =>
    numberTypes.find? fun t => t.kind == kind && Text.digitsOfNat t.width == digits
  | [] => none

/-- The element type of a number type in the foreign byte order. A single byte has no order. -/
def NumberType.swapped (t : NumberType) : ElementType :=
  if t.width = 1 then ⟨t.name⟩ else ⟨">" ++ String.ofList (t.kind :: Text.digitsOfNat t.width)⟩

/-- The element type that a short spelling names. -/
def ofShort? : List Char → Option ElementType
  | '>' :: code => (ofCode? code).map NumberType.swapped
  | '<' :: code => (ofCode? code).map fun t => ⟨t.name⟩
  | '=' :: code => (ofCode? code).map fun t => ⟨t.name⟩
  | '|' :: code => (ofCode? code).map fun t => ⟨t.name⟩
  | code => (ofCode? code).map fun t => ⟨t.name⟩

def ofName? (s : String) : Option ElementType :=
  if numberTypes.any fun t => t.name == s then some ⟨s⟩
  else (otherNames.lookup s).map fun name => ⟨name⟩

/-- The element type that a text spells. -/
def ofText? (s : String) : Option ElementType :=
  (ofShort? s.toList).or (ofName? s)

end ElementType

theorem ElementType.ofText?_storage (s : Storage) :
    ElementType.ofText? s.code = some (ofStorage s)
      ∧ ElementType.ofText? s.name = some (ofStorage s) := by
  cases s <;> exact ⟨by decide +kernel, by decide +kernel⟩

end PointStream

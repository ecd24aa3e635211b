import PointStream.Failure

namespace PointStream

/-- A value read from a cell. -/
inductive Scalar where
  | real (x : Double)
  | whole (n : Int)

def Scalar.text : Scalar → String
  | real x => Decimal.shortest x
  | whole n => Text.intText n

namespace Storage

/-- The number of values of a storage type, a power of two. -/
def modulus (s : Storage) : Nat :=
  2 ^ (8 * s.width)

def lowest (s : Storage) : Int :=
  if s.signed then -((s.modulus / 2 : Nat) : Int) else 0

/-- The whole number that the low bytes of a word write. -/
def wholeOfWord (s : Storage) (w : UInt64) : Int :=
  let low := w.toNat % s.modulus
  if s.signed && s.modulus ≤ 2 * low then (low : Int) - s.modulus else low

/-- The word of a whole number, whose low bytes are those of the number. -/
def wordOfInt (n : Int) : UInt64 :=
  UInt64.ofNat (n % 2 ^ 64).toNat

def read (s : Storage) (w : UInt64) : Scalar :=
  match s with
  | float64 => .real ⟨w⟩
  | _ => .whole (s.wholeOfWord w)

/-- The bytes of a word that a storage type keeps, least significant first. -/
def bytes (s : Storage) (w : UInt64) : List UInt8 :=
  (List.range s.width).map fun i => UInt8.ofNat (w.toNat / 2 ^ (8 * i))

/-- The word that stores a value in a cell of doubles. Null is stored as NaN. -/
def floatWord : Value → Except Failure UInt64
  | .null => .ok Double.nan.bits
  | .list _ => .error .misfit
  | v =>
    match v.double with
    | .ok x => .ok x.bits
    | .error e => .error e

/-- The word that stores a value in a cell of whole numbers. What counts is the whole number that
the value gives, that of a double and of a text too, and it has to be one of the storage type. It is
never wrapped: a cell of single bytes refuses 300.7. -/
def wholeWord (s : Storage) (v : Value) : Except Failure UInt64 :=
  match v.int with
  | .error e => .error e
  | .ok n =>
    if s.lowest ≤ n ∧ n < s.lowest + s.modulus then .ok (wordOfInt n)
    else .error (.number .outOfRange)

def write (s : Storage) (v : Value) : Except Failure UInt64 :=
  match s with
  | float64 => floatWord v
  | _ => s.wholeWord v

end Storage

end PointStream

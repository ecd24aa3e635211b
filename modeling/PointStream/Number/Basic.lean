import PointStream.Decimal.Layout

namespace PointStream

open Decimal

/-- Why a value does not give a number. -/
inductive NumberFault where
  /-- A text that writes no number, or a number that has no whole part. -/
  | unreadable
  /-- A number outside the range of the type asked for. -/
  | outOfRange
  /-- A value of a kind that never is a number. -/
  | notNumeric
deriving DecidableEq, Repr

namespace Double

/-- The double nearest to a whole number, unless that is infinite. -/
def ofInt? (n : Int) : Except NumberFault Double :=
  if Decimal.nearestCode n.natAbs 1 = Decimal.infinityCode then .error .outOfRange
  else .ok (ofInt n)

/-- The whole number that a double holds when its fractional part is dropped. -/
def toInt (x : Double) : Except NumberFault Int :=
  match x.truncate? with
  | some n => .ok n
  | none => .error (if x.isNaN then .unreadable else .outOfRange)

end Double

/-- A number as it is given in options and arguments. -/
inductive Number where
  | whole (n : Int)
  | real (x : Double)
  | truth (b : Bool)

namespace Number

/-- The place of a number on the line: a fraction with a positive denominator, one of the two
ends, or none. -/
inductive Place where
  | unordered
  | least
  | finite (num : Int) (den : Nat)
  | greatest

/-- The exact place of a double. -/
def placeOf (x : Double) : Place :=
  match x.toFraction? with
  | some (negative, v) => .finite (if negative then -(v.num : Int) else v.num) v.den
  | none =>
    if x.isNaN then .unordered
    else if x.isNegative then .least else .greatest

def place : Number → Place
  | whole n => .finite n 1
  | real x => placeOf x
  | truth b => .finite (if b then 1 else 0) 1

/-- Whether one place lies before another. -/
def Place.before : Place → Place → Bool
  | .finite a b, .finite c d => a * d < c * b
  | .least, .finite _ _ => true
  | .least, .greatest => true
  | .finite _ _, .greatest => true
  | _, _ => false

/-- Whether one place is another or lies before it. -/
def Place.upTo : Place → Place → Bool
  | .finite a b, .finite c d => a * d ≤ c * b
  | .least, .least => true
  | .greatest, .greatest => true
  | p, q => p.before q

/-- Exact comparison; a NaN is below nothing. -/
def lt (a b : Number) : Bool :=
  a.place.before b.place

/-- Exact comparison; a NaN is not even equal to itself. -/
def le (a b : Number) : Bool :=
  a.place.upTo b.place

@[simp]
theorem lt_whole (a b : Int) : (whole a).lt (whole b) = decide (a < b) := by
  simp [lt, place, Place.before]

@[simp]
theorem le_whole (a b : Int) : (whole a).le (whole b) = decide (a ≤ b) := by
  simp [le, place, Place.upTo]

/-- The whole number that a number holds when its fractional part is dropped. -/
def toInt : Number → Except NumberFault Int
  | whole n => .ok n
  | real x => x.toInt
  | truth b => .ok (if b then 1 else 0)

def text : Number → String
  | whole n => Text.intText n
  | real x => shortest x
  | truth b => if b then "True" else "False"

end Number

end PointStream

import PointStream.Number.Basic

namespace PointStream

/-- A number of points, or the index of a point. -/
inductive Amount where
  | whole (n : Nat)
  | real (x : Double)
deriving DecidableEq, Repr

namespace Amount

def number : Amount → Number
  | whole n => .whole n
  | real x => .real x

def wholePart : Amount → Nat
  | whole n => n
  | real x => (x.truncate?.getD 0).toNat

/-- The double of an amount; a whole number must not be too large for one. -/
def toDouble : Amount → Except NumberFault Double
  | whole n => Double.ofInt? n
  | real x => .ok x

/-- An amount with a number added that is not negative. -/
def add : Amount → Number → Except NumberFault Amount
  | whole n, .whole k => .ok (whole (n + k).toNat)
  | whole n, .truth b => .ok (whole (if b then n + 1 else n))
  | whole n, .real y => (Double.ofInt? n).map fun x => real (x + y)
  | real x, .whole k => (Double.ofInt? k).map fun y => real (x + y)
  | real x, .truth b => .ok (real (x + if b then 1 else 0))
  | real x, .real y => .ok (real (x + y))

/-- What is left of a total behind an amount; nothing is left behind more than the total. -/
def remaining (total : Nat) : Amount → Except NumberFault Number
  | whole n => .ok (.whole (total - n : Nat))
  | real x =>
    (Double.ofInt? total).map fun all => if all - x < 0 then .whole 0 else .real (all - x)

end Amount

end PointStream

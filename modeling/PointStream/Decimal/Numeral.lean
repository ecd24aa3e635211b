import PointStream.Decimal.Binary
import PointStream.Text.DecimalDigit

namespace PointStream.Decimal

/-- The number `digits * 10 ^ exponent`. -/
structure Numeral where
  digits : Nat
  exponent : Int
deriving DecidableEq, Repr

namespace Numeral

/-- The code of the double nearest to a numeral. Exponents far outside the range of the doubles
are decided without forming the power of ten. -/
def code (n : Numeral) : Nat :=
  if n.digits = 0 then 0
  else if 400 < n.exponent then infinityCode
  else if n.exponent + (n.digits.log2 : Int) + 1 < -400 then 0
  else nearestCode (n.digits * 10 ^ n.exponent.toNat) (10 ^ (-n.exponent).toNat)

def toDouble (negative : Bool) (n : Numeral) : Double :=
  .ofSignCode negative n.code

/-- The same number without zeros at the end of its digits. -/
def stripZeros (n : Numeral) : Numeral :=
  if h : n.digits ≠ 0 ∧ n.digits % 10 = 0 then stripZeros ⟨n.digits / 10, n.exponent + 1⟩ else n
termination_by n.digits
decreasing_by exact Nat.div_lt_self (Nat.pos_of_ne_zero h.1) (by decide)

/-- A finite magnitude in full: every double has a finite decimal expansion. -/
def exact (v : Magnitude) : Numeral :=
  ⟨v.mantissa * 2 ^ v.exponent.toNat * 5 ^ (-v.exponent).toNat, -((-v.exponent).toNat : Int)⟩

/-- The numeral on the grid of multiples of `10 ^ grid` that reads back to the double with a given
code, if there is one: of the two neighbours of the value, the nearer one that does. -/
def onGrid? (code : Nat) (v : Magnitude) (grid : Int) : Option Numeral :=
  let num := v.num * 10 ^ (-grid).toNat
  let den := v.den * 10 ^ grid.toNat
  let below : Numeral := ⟨num / den, grid⟩
  let above : Numeral := ⟨num / den + 1, grid⟩
  let twice := 2 * (num % den)
  let belowFirst := twice < den || (twice == den && below.digits % 2 == 0)
  let (first, second) := if belowFirst then (below, above) else (above, below)
  if first.code = code then some first
  else if second.code = code then some second
  else none

/-- The first hit on a row of ever finer grids. -/
def onGrids? (code : Nat) (v : Magnitude) : Nat → Int → Option Numeral
  | 0, _ => none
  | steps + 1, grid =>
    match onGrid? code v grid with
    | some n => some n
    | none => onGrids? code v steps (grid - 1)

/-- An exponent of ten that a positive fraction stays below. -/
def exponentAbove (num den : Nat) : Int :=
  (binaryExponent num den + 1) * 30103 / 100000 + 1

/-- The numeral with the fewest digits that reads back to the double with a given finite code. -/
def shortest (code : Nat) : Numeral :=
  let v := Magnitude.ofCode code
  if code = 0 then ⟨0, 0⟩
  else ((onGrids? code v 18 (exponentAbove v.num v.den - 1)).getD (exact v)).stripZeros

end Numeral

end PointStream.Decimal

import PointStream.Double
import PointStream.Number.Power

/-!
# Doubles as fractions

The magnitudes of the doubles, from zero up to infinity, are numbered in ascending order: the
*code* of a double is its bit pattern without the sign. `Magnitude.ofCode` decodes a finite code
into a whole number times a power of two, and `nearestCode` goes the other way for an arbitrary
fraction: it finds the double nearest to it, halves going to the even code.
-/

namespace PointStream

namespace Decimal

/-- The whole number nearest to `num / den`; a half goes to the even neighbour. -/
def roundHalfEven (num den : Nat) : Nat :=
  let q := num / den
  let r := num % den
  if 2 * r < den then q
  else if den < 2 * r then q + 1
  else q + q % 2

/-- The exponent of the greatest power of two that does not exceed the positive fraction
`num / den`. -/
def binaryExponent (num den : Nat) : Int :=
  let k : Int := (num.log2 : Int) - (den.log2 : Int)
  if den * 2 ^ k.toNat ≤ num * 2 ^ (-k).toNat then k else k - 1

/-- The code of infinity, one above the code of the greatest finite double. -/
def infinityCode : Nat :=
  0x7FF * 2 ^ 52

/-- The code of the double nearest to `num / den`. The spacing of the doubles around a value is a
power of two, and never finer than that of the subnormal ones. -/
def nearestCode (num den : Nat) : Nat :=
  if num = 0 then 0
  else
    let q := max (binaryExponent num den - 52) (-1074)
    min ((q + 1074).toNat * 2 ^ 52
      + roundHalfEven (num * 2 ^ (-q).toNat) (den * 2 ^ q.toNat)) infinityCode

/-- A finite magnitude, `mantissa * 2 ^ exponent`. -/
structure Magnitude where
  mantissa : Nat
  exponent : Int
deriving DecidableEq, Repr

/-- The magnitude with a given finite code. -/
def Magnitude.ofCode (code : Nat) : Magnitude :=
  if code < 2 ^ 52 then ⟨code, -1074⟩
  else ⟨2 ^ 52 + code % 2 ^ 52, (code / 2 ^ 52 : Nat) - 1075⟩

def Magnitude.num (v : Magnitude) : Nat :=
  v.mantissa * 2 ^ v.exponent.toNat

def Magnitude.den (v : Magnitude) : Nat :=
  2 ^ (-v.exponent).toNat

end Decimal

namespace Double

open Decimal

/-- The code of a double: its magnitude as a number. -/
def code (x : Double) : Nat :=
  x.magnitude.toNat

def ofSignCode (negative : Bool) (code : Nat) : Double :=
  ⟨UInt64.ofNat (if negative then 2 ^ 63 + code else code)⟩

/-- The double nearest to a whole number, infinite when the number is too large. -/
def ofInt (n : Int) : Double :=
  ofSignCode (n < 0) (nearestCode n.natAbs 1)

def ofNat (n : Nat) : Double :=
  ofSignCode false (nearestCode n 1)

instance (n : Nat) : OfNat Double n :=
  ⟨ofNat n⟩

instance : OfScientific Double :=
  ⟨fun digits negative places =>
    ofSignCode false
      (if negative then nearestCode digits (10 ^ places) else nearestCode (digits * 10 ^ places) 1)⟩

/-- A finite double as a signed fraction: its sign and magnitude. -/
def toFraction? (x : Double) : Option (Bool × Magnitude) :=
  if x.isFinite then some (x.isNegative, Magnitude.ofCode x.code) else none

/-- The whole number left of a finite double when its fractional part is dropped. -/
def truncate? (x : Double) : Option Int :=
  x.toFraction?.map fun (negative, v) =>
    let n : Int := (v.num / v.den : Nat)
    if negative then -n else n

/-- The least whole number that is not below a finite double. -/
def ceiling? (x : Double) : Option Int :=
  x.toFraction?.map fun (negative, v) =>
    if negative then -((v.num / v.den : Nat) : Int) else ((v.num + v.den - 1) / v.den : Nat)

end Double

end PointStream

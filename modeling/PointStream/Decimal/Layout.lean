import PointStream.Decimal.Numeral

namespace PointStream.Decimal

open Text

/-- A minus sign or nothing. -/
def signChars (negative : Bool) : List Char :=
  if negative then ['-'] else []

/-- Digits with zeros before them, up to a least length. -/
def padded (length : Nat) (cs : List Char) : List Char :=
  List.replicate (length - cs.length) '0' ++ cs

/-- The exponent of a scientific form: a sign and at least two digits. -/
def exponentChars (e : Int) : List Char :=
  (if e < 0 then '-' else '+') :: padded 2 (digitsOfNat e.natAbs)

/-- Digits laid out with the decimal point behind the first `point` of them. The positional form
is used while the point falls not more than three places before the first digit and not more than
sixteen behind it, and it always shows a digit on each side of the point. -/
def layout (digits : List Char) (point : Int) : List Char :=
  if 0 < point ∧ point ≤ 16 then
    let whole := point.toNat
    if digits.length ≤ whole then
      digits ++ List.replicate (whole - digits.length) '0' ++ ['.', '0']
    else digits.take whole ++ '.' :: digits.drop whole
  else if -4 < point ∧ point ≤ 0 then
    '0' :: '.' :: List.replicate (-point).toNat '0' ++ digits
  else
    let fraction := digits.drop 1
    digits.take 1 ++ (if fraction.isEmpty then [] else '.' :: fraction)
      ++ 'e' :: exponentChars (point - 1)

def Numeral.chars (n : Numeral) : List Char :=
  let digits := digitsOfNat n.digits
  layout digits ((digits.length : Int) + n.exponent)

def shortestChars (x : Double) : List Char :=
  if x.isNaN then ['n', 'a', 'n']
  else signChars (x.isNegative) ++
    if x.isInfinite then ['i', 'n', 'f'] else (Numeral.shortest (x.code)).chars

/-- The text of a double with the fewest digits that read back to it. -/
def shortest (x : Double) : String :=
  String.ofList (shortestChars x)

/-- A whole number of units of the last place, written with that many decimal places. -/
def placed (places units : Nat) : List Char :=
  let digits := padded (places + 1) (digitsOfNat units)
  let whole := digits.length - places
  digits.take whole ++ (if places = 0 then [] else '.' :: digits.drop whole)

/-- A double with a set number of decimal places, its exact value rounded half to even. -/
def fixed (places : Nat) (x : Double) : String :=
  if x.isNaN then "nan"
  else
    let body :=
      if x.isInfinite then ['i', 'n', 'f']
      else
        let v := Magnitude.ofCode (x.code)
        placed places (roundHalfEven (v.num * 10 ^ places) v.den)
    String.ofList (signChars (x.isNegative) ++ body)

/-- The exponent of the greatest power of ten that does not exceed a positive fraction, looked for
from an exponent downwards. -/
def decimalExponent (num den : Nat) : Nat → Int → Int
  | 0, e => e
  | steps + 1, e =>
    if den * 10 ^ e.toNat ≤ num * 10 ^ (-e).toNat then e
    else decimalExponent num den steps (e - 1)

/-- A positive fraction in scientific form: its digits as a whole number, one digit before the
point and the others behind it, and the exponent of ten. A digit that rounding carries over moves
the exponent up. -/
def scientificDigits (places : Nat) (v : Magnitude) : Nat × Int :=
  let e := decimalExponent v.num v.den 4 (Numeral.exponentAbove v.num v.den)
  let shift : Int := (places : Int) - e
  let units := roundHalfEven (v.num * 10 ^ shift.toNat) (v.den * 10 ^ (-shift).toNat)
  if units < 10 ^ (places + 1) then (units, e) else (units / 10, e + 1)

/-- A double in scientific form with a set number of places, its exact value rounded half to
even. -/
def scientific (places : Nat) (x : Double) : String :=
  if x.isNaN then "nan"
  else
    let body :=
      if x.isInfinite then ['i', 'n', 'f']
      else
        let (units, e) :=
          if x.code = 0 then (0, 0) else scientificDigits places (Magnitude.ofCode (x.code))
        placed places units ++ 'e' :: exponentChars e
    String.ofList (signChars (x.isNegative) ++ body)

end PointStream.Decimal

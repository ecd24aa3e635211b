import PointStream.Text.Blank
import PointStream.Decimal.Layout

namespace PointStream.Number

open Text Decimal

/-- Drops the underscores between digits. An underscore anywhere else spoils the text. -/
def joinDigits : Bool → List Char → Option (List Char)
  | _, [] => some []
  | afterDigit, c :: cs =>
    if c = '_' then
      if afterDigit && cs.head?.any isPlainDigit then joinDigits false cs else none
    else (joinDigits (isPlainDigit c) cs).map (c :: ·)

/-- The text of a number in plain digits, without surrounding white space and underscores. -/
def plainForm? (cs : List Char) : Option (List Char) :=
  joinDigits false ((strip isWhiteSpace cs).map plainDigit)

/-- Splits a leading sign off a text: whether it was a minus, and the rest. -/
def splitSign : List Char → Bool × List Char
  | '-' :: cs => (true, cs)
  | '+' :: cs => (false, cs)
  | cs => (false, cs)

def readInt? (cs : List Char) : Option Int :=
  (plainForm? cs).bind fun plain =>
    let (negative, digits) := splitSign plain
    if digits.isEmpty || !digits.all isPlainDigit then none
    else
      let n : Int := natOfDigits digits
      some (if negative then -n else n)

/-- The exponent at the end of a numeral: nothing, or the letter e, a sign and digits. -/
def readExponent? : List Char → Option Int
  | [] => some 0
  | c :: cs =>
    if c = 'e' || c = 'E' then
      let (negative, digits) := splitSign cs
      if digits.isEmpty || !digits.all isPlainDigit then none
      else
        let n : Int := natOfDigits digits
        some (if negative then -n else n)
    else none

/-- A numeral without sign: digits with an optional point before, among or behind them, and an
optional exponent. -/
def readNumeral? (cs : List Char) : Option Numeral :=
  let whole := cs.takeWhile isPlainDigit
  let rest := cs.dropWhile isPlainDigit
  let (fraction, rest) := match rest with
    | '.' :: more => (more.takeWhile isPlainDigit, more.dropWhile isPlainDigit)
    | _ => ([], rest)
  if whole.isEmpty && fraction.isEmpty then none
  else (readExponent? rest).map fun e =>
    ⟨natOfDigits (whole ++ fraction), e - fraction.length⟩

/-- The code of the magnitude that a text without sign writes. -/
def readCode? (cs : List Char) : Option Nat :=
  let word := cs.map Char.toLower
  if word = ['i', 'n', 'f'] || word = ['i', 'n', 'f', 'i', 'n', 'i', 't', 'y'] then
    some infinityCode
  else if word = ['n', 'a', 'n'] then some Double.nan.code
  else (readNumeral? cs).map Numeral.code

def readDouble? (cs : List Char) : Option Double :=
  (plainForm? cs).bind fun plain =>
    let (negative, magnitude) := splitSign plain
    (readCode? magnitude).map (.ofSignCode negative)

end PointStream.Number

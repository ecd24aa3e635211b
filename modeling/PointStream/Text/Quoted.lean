import PointStream.Text.CodePoint
import PointStream.Text.Printable

namespace PointStream.Text

/-- The digit of a number below sixteen, in lower case. -/
def hexDigit (n : Nat) : Char :=
  if n < 10 then Char.ofNat (0x30 + n) else Char.ofNat (0x57 + n)

/-- A number in hexadecimal with a set number of places, high places dropped. -/
def hexDigits : Nat → Nat → List Char
  | 0, _ => []
  | places + 1, n => hexDigits places (n / 16) ++ [hexDigit (n % 16)]

def quoteFor (cs : List Char) : Char :=
  if cs.contains '\'' && !cs.contains '"' then '"' else '\''

/-- One character of a quoted text. -/
def escapeIn (quote c : Char) : List Char :=
  if c = quote || c = '\\' then ['\\', c]
  else if c = '\n' then ['\\', 'n']
  else if c = '\r' then ['\\', 'r']
  else if c = '\t' then ['\\', 't']
  else if isPrintable c then [c]
  else if c.toNat < 0x100 then '\\' :: 'x' :: hexDigits 2 c.toNat
  else if c.toNat < 0x10000 then '\\' :: 'u' :: hexDigits 4 c.toNat
  else '\\' :: 'U' :: hexDigits 8 c.toNat

/-- One code point of a quoted text. Half of a surrogate pair is not printable. -/
def escapePointIn (quote : Char) (n : Nat) : List Char :=
  if isHalf n then '\\' :: 'u' :: hexDigits 4 n else escapeIn quote (Char.ofNat n)

def quoted (s : String) : String :=
  let quote := quoteFor s.toList
  String.ofList (quote :: (codePoints s).flatMap (escapePointIn quote) ++ [quote])

/-- Items between brackets, separated by a comma and a space. -/
def bracketed (items : List String) : String :=
  "[" ++ ", ".intercalate items ++ "]"

end PointStream.Text

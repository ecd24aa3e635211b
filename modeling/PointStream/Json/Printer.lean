import PointStream.Text.Quoted
import PointStream.Value

namespace PointStream.Json

open Text Decimal

/-- A code unit of sixteen bits as an escape. -/
def unitEscape (n : Nat) : List Char :=
  '\\' :: 'u' :: hexDigits 4 n

/-- One code point of a JSON string. Code points outside ASCII are written as one or two code
units. -/
def escapePoint (n : Nat) : List Char :=
  if n = '"'.toNat || n = '\\'.toNat then ['\\', Char.ofNat n]
  else if n = '\n'.toNat then ['\\', 'n']
  else if n = '\r'.toNat then ['\\', 'r']
  else if n = '\t'.toNat then ['\\', 't']
  else if n = 8 then ['\\', 'b']
  else if n = 12 then ['\\', 'f']
  else if 0x20 ≤ n && n < 0x7F then [Char.ofNat n]
  else if n < 0x10000 then unitEscape n
  else unitEscape (0xD800 + (n - 0x10000) / 0x400) ++ unitEscape (0xDC00 + (n - 0x10000) % 0x400)

def stringChars (s : String) : List Char :=
  '"' :: (codePoints s).flatMap escapePoint ++ ['"']

/-- A double in JSON, where NaN and the infinities are written as words. -/
def doubleChars (x : Double) : List Char :=
  if x.isNaN then "NaN".toList
  else if x.isInfinite then signChars (x.isNegative) ++ "Infinity".toList
  else shortestChars x

/-- How the items of a list and the members of a record are set apart. -/
inductive Spacing where
  /-- All on one line. -/
  | line
  /-- Each on a line of its own, behind a number of blanks. -/
  | lines (margin : Nat)

namespace Spacing

/-- The spacing one level further in. -/
def deeper : Spacing → Spacing
  | line => line
  | lines margin => lines (margin + 2)

/-- What stands before an item. -/
def lead : Spacing → List Char
  | line => []
  | lines margin => '\n' :: List.replicate margin ' '

/-- What stands between two items. -/
def gap : Spacing → List Char
  | line => [',', ' ']
  | lines margin => ',' :: '\n' :: List.replicate margin ' '

end Spacing

/-- The text that stands in JSON for a value that is neither a list nor a record. A value without
such a text is the error. Whole numbers of any length are written, as by an interpreter that is set
to convert them without a limit; what holds where there is one is said of short numbers only. -/
def scalarChars : Value → Except Value (List Char)
  | .null => .ok "null".toList
  | .truth b => .ok (if b then "true" else "false").toList
  | .whole n => .ok (intChars n)
  | .real x => .ok (doubleChars x)
  | .text s => .ok (stringChars s)
  | .bounds b => .ok (stringChars b.text)
  | .reference r => .ok (stringChars r.text)
  | .mode m => .ok (stringChars m.name)
  | .dimensionId d => .ok (stringChars d.id)
  | .dimension d => .ok (stringChars d.id)
  | v => .error v

mutual

/-- A value as JSON text; the error is the first value in it that has no such text. -/
def chars (spacing : Spacing) : Value → Except Value (List Char)
  | .list [] => .ok ['[', ']']
  | .list (v :: vs) =>
    match chars spacing.deeper v with
    | .error e => .error e
    | .ok first =>
      match itemChars spacing.deeper vs with
      | .error e => .error e
      | .ok others => .ok ('[' :: spacing.deeper.lead ++ first ++ others ++ spacing.lead ++ [']'])
  | .record [] => .ok ['\x7b', '\x7d']
  | .record ((key, v) :: members) =>
    match chars spacing.deeper v with
    | .error e => .error e
    | .ok first =>
      match memberChars spacing.deeper members with
      | .error e => .error e
      | .ok others =>
        .ok ('\x7b' :: spacing.deeper.lead ++ stringChars key ++ ':' :: ' ' :: first ++ others
          ++ spacing.lead ++ ['\x7d'])
  | v => scalarChars v

/-- The items of a list behind the first one. -/
def itemChars (spacing : Spacing) : List Value → Except Value (List Char)
  | [] => .ok []
  | v :: vs =>
    match chars spacing v with
    | .error e => .error e
    | .ok first =>
      match itemChars spacing vs with
      | .error e => .error e
      | .ok others => .ok (spacing.gap ++ first ++ others)

/-- The members of a record behind the first one. -/
def memberChars (spacing : Spacing) : List (String × Value) → Except Value (List Char)
  | [] => .ok []
  | (key, v) :: members =>
    match chars spacing v with
    | .error e => .error e
    | .ok first =>
      match memberChars spacing members with
      | .error e => .error e
      | .ok others => .ok (spacing.gap ++ stringChars key ++ ':' :: ' ' :: first ++ others)

end

def text (spacing : Spacing) (v : Value) : Except Value String :=
  (chars spacing v).map String.ofList

end PointStream.Json

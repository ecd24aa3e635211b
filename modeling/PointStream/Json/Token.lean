import PointStream.Number.Reading
import PointStream.Text.CodePoint

namespace PointStream.Json

/-- The tokens of a JSON text. -/
inductive Token where
  | openList
  | closeList
  | openRecord
  | closeRecord
  | colon
  | comma
  | string (s : String)
  | word (cs : List Char)
deriving DecidableEq, Repr

namespace Token

/-- Whether a character may stand between tokens. -/
def isGap (c : Char) : Bool :=
  c = ' ' || c = '\t' || c = '\n' || c = '\r'

def isWordChar (c : Char) : Bool :=
  c.isAlphanum || c = '-' || c = '+' || c = '.'

/-- The mark that a character is. -/
def mark? (c : Char) : Option Token :=
  if c = '[' then some openList
  else if c = ']' then some closeList
  else if c = '\x7b' then some openRecord
  else if c = '\x7d' then some closeRecord
  else if c = ':' then some colon
  else if c = ',' then some comma
  else none

def hexValue? (c : Char) : Option Nat :=
  if '0' ≤ c && c ≤ '9' then some (c.toNat - 0x30)
  else if 'a' ≤ c && c ≤ 'f' then some (c.toNat - 0x57)
  else if 'A' ≤ c && c ≤ 'F' then some (c.toNat - 0x37)
  else none

/-- The character that an escape of a single letter stands for. -/
def escaped? (c : Char) : Option Char :=
  if c = '"' || c = '\\' || c = '/' then some c
  else if c = 'b' then some (Char.ofNat 8)
  else if c = 'f' then some (Char.ofNat 12)
  else if c = 'n' then some '\n'
  else if c = 'r' then some '\r'
  else if c = 't' then some '\t'
  else none

/-- Where the lexer stands. The characters of a string or word read so far are kept last first. -/
inductive State where
  | between
  | inWord (cs : List Char)
  | inString (cs : List Char) (high : Option Nat)
  /-- Behind the backslash of an escape. -/
  | escape (cs : List Char) (high : Option Nat)
  /-- Inside a code unit, with the value so far and the number of digits still owed. -/
  | inUnit (cs : List Char) (high : Option Nat) (value : Nat) (owed : Nat)

/-- The characters read so far with those of one more code point. -/
def pushPoint (n : Nat) (cs : List Char) : List Char :=
  (Text.charsOfCodePoint n).reverse ++ cs

/-- The characters read so far when a first half of a pair is not followed by a second one. -/
def settle (cs : List Char) : Option Nat → List Char
  | none => cs
  | some half => pushPoint half cs

/-- The state inside a string once a code unit is complete. Two halves of a pair that follow one
another make one code point; a half that stays alone is a code point of its own. -/
def afterUnit (cs : List Char) (high : Option Nat) (unit : Nat) : State :=
  if 0xD800 ≤ unit && unit < 0xDC00 then .inString (settle cs high) (some unit)
  else if 0xDC00 ≤ unit && unit < 0xE000 then
    match high with
    | some h => .inString (pushPoint (0x10000 + (h - 0xD800) * 0x400 + (unit - 0xDC00)) cs) none
    | none => .inString (pushPoint unit cs) none
  else .inString (pushPoint unit (settle cs high)) none

/-- The state behind a character that begins something new between tokens, and the mark if the
character is one. -/
def begin? (c : Char) : Option (List Token × State) :=
  if isGap c then some ([], .between)
  else if c = '"' then some ([], .inString [] none)
  else if isWordChar c then some ([], .inWord [c])
  else (mark? c).map fun t => ([t], .between)

/-- One step of the lexer: the tokens that a character completes, and the next state. -/
def step? : State → Char → Option (List Token × State)
  | .between, c => begin? c
  | .inWord cs, c =>
    if isWordChar c then some ([], .inWord (c :: cs))
    else (begin? c).map fun (tokens, state) => (word cs.reverse :: tokens, state)
  | .inString cs high, c =>
    if c = '"' then some ([string (String.ofList (settle cs high).reverse)], .between)
    else if c = '\\' then some ([], .escape cs high)
    else if c.toNat < 0x20 then none
    else some ([], .inString (c :: settle cs high) none)
  | .escape cs high, c =>
    if c = 'u' then some ([], .inUnit cs high 0 4)
    else (escaped? c).map fun e => ([], .inString (e :: settle cs high) none)
  | .inUnit cs high value owed, c =>
    (hexValue? c).map fun digit =>
      let unit := 16 * value + digit
      if owed ≤ 1 then ([], afterUnit cs high unit)
      else ([], .inUnit cs high unit (owed - 1))

/-- The tokens of a text, read from a state on. The text may end between tokens or with a word. -/
def scan? : State → List Char → Option (List Token)
  | .between, [] => some []
  | .inWord cs, [] => some [word cs.reverse]
  | _, [] => none
  | state, c :: rest =>
    match step? state c with
    | none => none
    | some (tokens, next) => (scan? next rest).map (tokens ++ ·)

def ofChars? (cs : List Char) : Option (List Token) :=
  scan? .between cs

end Token

end PointStream.Json

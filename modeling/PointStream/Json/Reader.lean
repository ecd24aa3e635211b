import PointStream.Json.Token
import PointStream.Value

/-!
# Reading JSON

The reader runs over the tokens of a text with a stack of the lists and records that are still
open. Besides the constants of JSON it knows NaN and the infinities, it reads whole numbers of any
size, and of several members with one key it keeps the last value in the place of the first.
-/

namespace PointStream.Json

open Number Decimal

/-- Whether digits may be the whole part of a JSON number: there are some, and no zero stands
before others. -/
def isWholePart (digits : List Char) : Bool :=
  match digits with
  | [] => false
  | [_] => true
  | c :: _ => c != '0'

/-- The number that a word without sign writes: a whole number, or a numeral when it has a
fraction or an exponent. -/
def unsigned? (negative : Bool) (cs : List Char) : Option Value :=
  let whole := cs.takeWhile Text.isPlainDigit
  let rest := cs.dropWhile Text.isPlainDigit
  if !isWholePart whole then none
  else if rest.isEmpty then
    let n : Int := Text.natOfDigits whole
    some (.whole (if negative then -n else n))
  else
    let (fraction, tail) := match rest with
      | '.' :: more => (more.takeWhile Text.isPlainDigit, more.dropWhile Text.isPlainDigit)
      | _ => ([], rest)
    if rest.head? = some '.' && fraction.isEmpty then none
    else
      match readExponent? tail with
      | none => none
      | some e =>
        some (.real (Numeral.toDouble negative
          ⟨Text.natOfDigits (whole ++ fraction), e - fraction.length⟩))

def constants : List (String × Value) :=
  [("null", .null), ("true", .truth true), ("false", .truth false),
    ("NaN", .real .nan), ("Infinity", .real .infinity),
    ("-Infinity", .real Double.infinity.neg)]

/-- The value of a word: a constant or a number. -/
def wordValue? (cs : List Char) : Option Value :=
  match constants.find? fun constant => constant.1.toList == cs with
  | some constant => some constant.2
  | none =>
    match cs with
    | '-' :: rest => unsigned? true rest
    | _ => unsigned? false cs

/-- A list or record that is still open. Items and members stand last first. -/
inductive Frame where
  | list (items : List Value)
  | record (members : List (String × Value)) (key : String)

/-- What the reader waits for. -/
inductive Demand where
  | value
  /-- The first value of a list, or its end. -/
  | valueOrEnd
  /-- The key of a member. -/
  | key (members : List (String × Value))
  /-- The first key of a record, or its end. -/
  | keyOrEnd
  /-- The colon behind a key. -/
  | colon (members : List (String × Value)) (key : String)
  /-- What may follow a value: a comma or an end. -/
  | after (v : Value)

/-- The reader between two tokens: the open lists and records, innermost first, and what is
waited for. -/
structure Reader where
  frames : List Frame
  demand : Demand

/-- Members of a record, last first, in the order of their first keys and with their last
values. -/
def membersOf (members : List (String × Value)) : List (String × Value) :=
  members.foldr (fun member record => Options.put record member.1 member.2) []

def closeList (frames : List Frame) (items : List Value) : Reader :=
  ⟨frames, .after (.list items.reverse)⟩

def closeRecord (frames : List Frame) (members : List (String × Value)) : Reader :=
  ⟨frames, .after (.record (membersOf members))⟩

/-- The reader behind the first token of a value. -/
def beginValue? (frames : List Frame) : Token → Option Reader
  | .openList => some ⟨.list [] :: frames, .valueOrEnd⟩
  | .openRecord => some ⟨frames, .keyOrEnd⟩
  | .string s => some ⟨frames, .after (.text s)⟩
  | .word cs => (wordValue? cs).map fun v => ⟨frames, .after v⟩
  | _ => none

/-- The reader behind one more token. -/
def Reader.step? (r : Reader) (t : Token) : Option Reader :=
  match r.demand, r.frames, t with
  | .value, frames, t => beginValue? frames t
  | .valueOrEnd, .list items :: frames, .closeList => some (closeList frames items)
  | .valueOrEnd, frames, t => beginValue? frames t
  | .key members, frames, .string key => some ⟨frames, .colon members key⟩
  | .keyOrEnd, frames, .string key => some ⟨frames, .colon [] key⟩
  | .keyOrEnd, frames, .closeRecord => some (closeRecord frames [])
  | .colon members key, frames, .colon => some ⟨.record members key :: frames, .value⟩
  | .after v, .list items :: frames, .comma => some ⟨.list (v :: items) :: frames, .value⟩
  | .after v, .list items :: frames, .closeList => some (closeList frames (v :: items))
  | .after v, .record members key :: frames, .comma =>
    some ⟨frames, .key ((key, v) :: members)⟩
  | .after v, .record members key :: frames, .closeRecord =>
    some (closeRecord frames ((key, v) :: members))
  | _, _, _ => none

def Reader.run? (r : Reader) : List Token → Option Reader
  | [] => some r
  | t :: ts =>
    match r.step? t with
    | none => none
    | some next => next.run? ts

/-- The value that a JSON text writes. -/
def read? (s : String) : Option Value := do
  let tokens ← Token.ofChars? s.toList
  match ← Reader.run? ⟨[], .value⟩ tokens with
  | ⟨[], .after v⟩ => some v
  | _ => none

end PointStream.Json

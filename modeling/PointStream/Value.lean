import PointStream.Bounds.Text
import PointStream.Generator.Mode
import PointStream.Number.Basic
import PointStream.Number.Reading
import PointStream.Schema
import PointStream.SpatialReference

namespace PointStream

/-- The value of an option. -/
inductive Value where
  | null
  | truth (b : Bool)
  | whole (n : Int)
  | real (x : Double)
  | text (s : String)
  | list (items : List Value)
  | record (members : List (String × Value))
  | bounds (b : Bounds)
  | reference (r : SpatialReference)
  | mode (m : Mode)
  | dimensionId (d : Dimension)
  | dimension (d : Dimension)
  | schema (s : Schema)
  /-- An object that is no value, known by its number and by the text that describes it at present.
  It stands for a whole option, never inside a list or a record. -/
  | described (number : Nat) (text : String)

instance : Inhabited Value :=
  ⟨.null⟩

/-- Named options in the order in which they were given. -/
abbrev Options := List (String × Value)

namespace Value

mutual

/-- The text that stands for a value in descriptions. -/
def describe : Value → String
  | .null => "None"
  | .truth b => (Number.truth b).text
  | .whole n => (Number.whole n).text
  | .real x => (Number.real x).text
  | .text s => Text.quoted s
  | .list items => Text.bracketed (describeAll items)
  | .record members => "\x7b" ++ ", ".intercalate (describeMembers members) ++ "\x7d"
  | .bounds b => b.describe
  | .reference r => r.describe
  | .mode m => "<Mode." ++ m.label ++ ": " ++ Text.quoted m.name ++ ">"
  | .dimensionId d =>
    "<DimensionId." ++ d.id ++ ": (" ++ Text.quoted d.name ++ ", "
      ++ Text.quoted d.storage.code ++ ")>"
  | .dimension d => d.describe
  | .schema s => s.describe
  | .described _ s => s

def describeAll : List Value → List String
  | [] => []
  | v :: vs => describe v :: describeAll vs

def describeMembers : List (String × Value) → List String
  | [] => []
  | (key, v) :: rest => (Text.quoted key ++ ": " ++ describe v) :: describeMembers rest

end

/-- The text of a value: a text and a spatial reference stand for themselves, everything else for
its description. -/
def toText : Value → String
  | .text s => s
  | .reference r => r.text
  | .mode m => "Mode." ++ m.label
  | .dimensionId d => "DimensionId." ++ d.id
  | v => v.describe

def number? : Value → Option Number
  | .truth b => some (.truth b)
  | .whole n => some (.whole n)
  | .real x => some (.real x)
  | _ => none

def toInt : Value → Except NumberFault Int
  | .truth b => .ok (if b then 1 else 0)
  | .whole n => .ok n
  | .real x => x.toInt
  | .text s => (Number.readInt? s.toList).elim (.error .unreadable) .ok
  | _ => .error .notNumeric

def toDouble : Value → Except NumberFault Double
  | .truth b => .ok (if b then 1 else 0)
  | .whole n => Double.ofInt? n
  | .real x => .ok x
  | .text s => (Number.readDouble? s.toList).elim (.error .unreadable) .ok
  | _ => .error .notNumeric

/-- The items that a value consists of: a list has its items, a text its code points, a record its
keys and a schema its dimensions. -/
def items? : Value → Option (List Value)
  | .list items => some items
  | .text s => some ((Text.codePoints s).map fun n => .text (Text.ofCodePoints [n]))
  | .record members => some (members.map fun member => .text member.1)
  | .schema s => some (s.dimensions.map .dimension)
  | _ => none

def isList : Value → Bool
  | .list _ => true
  | _ => false

mutual

/-- The lengths of nested lists from the outermost inwards, if all lists at one depth are equally
long and hold values of one depth. A value that is no list has no lengths. -/
def extents? : Value → Option (List Nat)
  | .list items => (commonExtents? items).map fun inner => items.length :: inner
  | _ => some []

/-- The lengths that values have in common. -/
def commonExtents? : List Value → Option (List Nat)
  | [] => some []
  | v :: vs =>
    match vs with
    | [] => extents? v
    | w :: rest =>
      match extents? v, commonExtents? (w :: rest) with
      | some a, some b => if a = b then some a else none
      | _, _ => none

end

mutual

/-- The values inside nested lists, from left to right. -/
def leaves : Value → List Value
  | .list items => leavesOfAll items
  | v => [v]

def leavesOfAll : List Value → List Value
  | [] => []
  | v :: vs => leaves v ++ leavesOfAll vs

end

end Value

def Options.get? (options : Options) (key : String) : Option Value :=
  (options.find? fun option => option.1 == key).map (·.2)

/-- Gives an option a value. An option that is there already keeps its place. -/
def Options.put (options : Options) (key : String) (v : Value) : Options :=
  if options.any fun option => option.1 == key then
    options.map fun option => if option.1 == key then (key, v) else option
  else options ++ [(key, v)]

/-- The options without the one of a given name. -/
def Options.erase (options : Options) (key : String) : Options :=
  options.filter fun option => option.1 != key

/-- The reference that an option value gives: null gives none, and a value that is no reference
gives its text without surrounding blanks. -/
def SpatialReference.ofValue : Value → SpatialReference
  | .null => .none
  | .reference r => r
  | v => ⟨Text.trim v.toText⟩

end PointStream

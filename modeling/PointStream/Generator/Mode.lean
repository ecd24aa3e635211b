import PointStream.Text.Blank
import PointStream.Text.Casing

namespace PointStream

/-- How a source lays its points out in its box: all at the minimum corner, at random, or in equal
steps from the minimum corner to the maximum corner. -/
inductive Mode where
  | constant
  | random
  | ramp
deriving DecidableEq, Repr

namespace Mode

def all : List Mode :=
  [constant, random, ramp]

def name : Mode → String
  | constant => "constant"
  | random => "random"
  | ramp => "ramp"

/-- The name of a mode in capitals. -/
def label : Mode → String
  | constant => "CONSTANT"
  | random => "RANDOM"
  | ramp => "RAMP"

/-- The mode that a text names, in any case and with blanks around it. -/
def ofText? (s : String) : Option Mode :=
  let key := Text.uncapitalized (Text.trim s)
  all.find? fun m => m.name == key

end Mode

end PointStream

import PointStream.Geometry
import PointStream.Decimal.Layout

namespace PointStream.Bounds

open Decimal

/-- The two ends of one axis between brackets. -/
def axisChars (lo hi : Double) : List Char :=
  '[' :: shortestChars lo ++ [',', ' '] ++ shortestChars hi ++ [']']

def chars (b : Bounds) : List Char :=
  '(' :: axisChars b.minimum.x b.maximum.x ++ [',', ' '] ++ axisChars b.minimum.y b.maximum.y
    ++ [',', ' '] ++ axisChars b.minimum.z b.maximum.z ++ [')']

/-- The text from which a box can be read back. -/
def text (b : Bounds) : String :=
  String.ofList b.chars

/-- The text that stands for a box in descriptions, with two decimal places. -/
def describe (b : Bounds) : String :=
  let axis (name : String) (lo hi : Double) : String :=
    name ++ "=[" ++ fixed 2 lo ++ ", " ++ fixed 2 hi ++ "]"
  "Bounds(" ++ axis "x" b.minimum.x b.maximum.x ++ ", " ++ axis "y" b.minimum.y b.maximum.y
    ++ ", " ++ axis "z" b.minimum.z b.maximum.z ++ ")"

end PointStream.Bounds

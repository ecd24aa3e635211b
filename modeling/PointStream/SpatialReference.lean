import PointStream.Text.Quoted

namespace PointStream

/-- The text that names a coordinate reference system; empty when there is none. -/
structure SpatialReference where
  text : String
deriving DecidableEq, Repr

namespace SpatialReference

def none : SpatialReference :=
  ⟨""⟩

instance : Inhabited SpatialReference :=
  ⟨none⟩

def isEmpty (r : SpatialReference) : Bool :=
  r.text.isEmpty

/-- The text that stands for a reference in descriptions: at most forty code points of it,
with dots in place of the end of a longer one. -/
def describe (r : SpatialReference) : String :=
  let points := Text.codePoints r.text
  let shown := if points.length ≤ 40 then r.text else Text.ofCodePoints (points.take 37) ++ "..."
  "SpatialReference(" ++ Text.quoted shown ++ ")"

end SpatialReference

end PointStream

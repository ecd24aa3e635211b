import PointStream.Failure

/-!
# Coordinate transformations

What coordinate reference systems there are, and how coordinates go from one to another, is the
business of a backend. The library asks it for two things: the system that a descriptor names, and
the operation that leads from one system to another. An operation works on a single point and on a
row of points, and the two need not agree on what they refuse.

A transform is a handle on an operation. It adds a check that the results are finite, and it can
be released.
-/

namespace PointStream

/-- A coordinate reference system as a backend knows it. -/
structure System where
  /-- The descriptor by which the backend finds the system. -/
  key : String
  name : String
  /-- The full text of the horizontal part; this is the whole system unless it has a vertical
  part. -/
  horizontal : String
deriving DecidableEq, Repr

/-- How coordinates go from one system to another. The error is what the backend reports. A row that
is transformed is as long as it was. -/
structure Operation where
  one : Point → Except String Point
  many : List Point → Except String (List Point)
  length_many : ∀ {ps qs : List Point}, many ps = .ok qs → qs.length = ps.length

/-- A collection of coordinate reference systems. The error is what it reports. -/
structure Backend where
  find : String → Except String System
  connect : System → System → Except String Operation

/-- A handle on an operation between two systems; once it is released the operation is gone. -/
structure Transform where
  source : System
  target : System
  operation : Option Operation

def Triple.isFinite (p : Point) : Bool :=
  p.x.isFinite && p.y.isFinite && p.z.isFinite

namespace Transform

def isReleased (t : Transform) : Bool :=
  t.operation.isNone

def release (t : Transform) : Transform :=
  { t with operation := none }

def apply (t : Transform) (p : Point) : Except Failure Point :=
  match t.operation with
  | none => .error .released
  | some operation =>
    match operation.one p with
    | .error diagnostic => .error (.projection diagnostic)
    | .ok q => if q.isFinite then .ok q else .error .nonFinite

/-- Transforms a row of points; a single result that is not finite spoils the row. -/
def applyAll (t : Transform) (ps : List Point) : Except Failure (List Point) :=
  match t.operation with
  | none => .error .released
  | some operation =>
    match operation.many ps with
    | .error diagnostic => .error (.projection diagnostic)
    | .ok qs => if qs.all Triple.isFinite then .ok qs else .error .nonFinite

/-- Columns of coordinates as rows. A column that ends before the longest one goes on with NaN. -/
def rowsOf (columns : Triple (List Double)) : List Point :=
  let rows := columns.toList.foldl (fun n column => max n column.length) 0
  let full (column : List Double) : List Double :=
    column ++ List.replicate (rows - column.length) Double.nan
  (full columns.x).zipWith (fun x (yz : Double × Double) => ⟨x, yz.1, yz.2⟩)
    ((full columns.y).zip (full columns.z))

/-- Transforms columns of coordinates, which need not be equally long: every axis has results for as
many coordinates as it was given. -/
def applyColumns (t : Transform) (columns : Triple (List Double)) :
    Except Failure (Triple (List Double)) :=
  match t.operation with
  | none => .error .released
  | some operation =>
    match operation.many (rowsOf columns) with
    | .error diagnostic => .error (.projection diagnostic)
    | .ok results =>
      let cut (axis : Point → Double) (column : List Double) : List Double :=
        (results.map axis).take column.length
      let ends : Triple (List Double) :=
        ⟨cut Triple.x columns.x, cut Triple.y columns.y, cut Triple.z columns.z⟩
      if ends.toList.all fun column => column.all Double.isFinite then .ok ends
      else .error .nonFinite

def describe (t : Transform) : String :=
  "CoordinateTransform(" ++ Text.quoted t.source.name ++ " -> " ++ Text.quoted t.target.name
    ++ ", " ++ (if t.isReleased then "closed" else "open") ++ ")"

end Transform

namespace Backend

def findFor (b : Backend) (role : Role) (descriptor : String) : Except Failure System :=
  (b.find descriptor).mapError (.importFailed role descriptor)

/-- A transform between the systems that two descriptors name. -/
def acquire (b : Backend) (source target : String) : Except Failure Transform :=
  match b.findFor .input source with
  | .error e => .error e
  | .ok a =>
    match b.findFor .output target with
    | .error e => .error e
    | .ok z =>
      match b.connect a z with
      | .error diagnostic => .error (.constructionFailed source target diagnostic)
      | .ok operation => .ok ⟨a, z, some operation⟩

/-- The full text of the horizontal part of the system that a descriptor names. -/
def horizontalText (b : Backend) (descriptor : String) : Except Failure String :=
  match b.find descriptor with
  | .error diagnostic => .error (.horizontalFailed descriptor diagnostic)
  | .ok system => .ok system.horizontal

end Backend

/-- The text of a reference without the vertical part of its system. -/
def SpatialReference.compact (b : Backend) (r : SpatialReference) : Except Failure String :=
  if r.isEmpty then .ok r.text else b.horizontalText r.text

end PointStream

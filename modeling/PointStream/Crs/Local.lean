import PointStream.Crs.Transform

/-!
# Local systems

A catalogue of systems that differ from a common base by a unit and an offset on each axis. Some of
them end at a limit along the y axis and treat points beyond it in their own way; systems of
different groups have no operation between them; and some join a horizontal and a vertical system.

Units, offsets and limits are written for any type of numbers, so that the same catalogue can be
read over exact arithmetic.
-/

namespace PointStream.Local

/-- What becomes of points beyond the limit of a system. -/
inductive Beyond where
  | refused
  /-- All coordinates become infinite. -/
  | infinite
  /-- The height is lost. -/
  | heightLost
  /-- The operation is refused for a row of points, and the limit ignored for a single one. -/
  | rowRefused
deriving DecidableEq, Repr

/-- A system of the catalogue. -/
structure Entry (α : Type) where
  key : String
  unit : α
  offset : Triple α
  limit : Option (α × Beyond)
  group : Nat
  /-- The systems that a compound system joins, the horizontal one first. -/
  parts : List String

/-- Coordinates of a system as coordinates of the base. -/
def Entry.toBase {α : Type} [Add α] [Mul α] (e : Entry α) (p : Triple α) : Triple α :=
  p.zipWith (fun v offset => v * e.unit + offset) e.offset

/-- Coordinates of the base as coordinates of a system. -/
def Entry.fromBase {α : Type} [Sub α] [Div α] (e : Entry α) (p : Triple α) : Triple α :=
  p.zipWith (fun v offset => (v - offset) / e.unit) e.offset

section

variable {α : Type} [OfScientific α] [Neg α]

/-- A system without limit that joins no others. -/
def plain (key : String) (unit : α) (offset : Triple α) : Entry α :=
  ⟨key, unit, offset, none, 1, []⟩

/-- The base with a limit. -/
def limited (key : String) (beyond : Beyond) : Entry α :=
  ⟨key, 1.0, Triple.all 0.0, some (90.0, beyond), 1, []⟩

def catalogue : List (Entry α) :=
  [plain "T:BASE" 1.0 (Triple.all 0.0),
    plain "T:HALF" 0.5 (Triple.all 0.0),
    plain "T:FEET" 0.3048 (Triple.all 0.0),
    plain "T:SHIFT" 1.0 ⟨100.0, -50.0, 7.25⟩,
    plain "T:MIXED" 0.1 ⟨0.3, 1e6, -0.7⟩,
    limited "T:CAP" .refused,
    limited "T:SOFT" .infinite,
    limited "T:SOFTZ" .heightLost,
    limited "T:BULK" .rowRefused,
    ⟨"T:ISLAND", 1.0, Triple.all 0.0, none, 2, []⟩,
    ⟨"T:COMP", 1.0, ⟨0.0, 0.0, 10.0⟩, none, 1, ["T:BASE", "T:DEEP"]⟩,
    ⟨"T:COMP2", 0.5, ⟨1.0, 2.0, 3.0⟩, none, 1, ["T:HALF", "T:DEEP"]⟩,
    plain "T:DEEP" 1.0 ⟨0.0, 0.0, 10.0⟩]

def entry? (key : String) : Option (Entry α) :=
  catalogue.find? fun e => e.key == key

end

/-- What stands before and behind the key of a system in its full text. -/
def fullTextEnds : List Char × List Char :=
  ("STUBCRS[\"".toList, "\"]".toList)

/-- The full text of the system with a given key. -/
def fullText (key : String) : String :=
  String.ofList (fullTextEnds.1 ++ key.toList ++ fullTextEnds.2)

/-- The entry that a descriptor names by its key or by its full text. -/
def find? (descriptor : String) : Option (Entry Double) :=
  catalogue.find? fun e => e.key == descriptor || fullText e.key == descriptor

/-- The name of a system: what stands behind the first two characters of its key, with a capital
first letter. -/
def nameOf (key : String) : String :=
  match key.toList.drop 2 with
  | [] => ""
  | c :: cs => String.ofList (c :: cs.map Text.smallLetter)

def systemOf (e : Entry Double) : System :=
  { key := e.key
    name := nameOf e.key
    horizontal := fullText ((e.parts.head?).getD e.key) }

def find (descriptor : String) : Except String System :=
  match find? descriptor with
  | some e => .ok (systemOf e)
  | none => .error ("Invalid projection: " ++ descriptor)

/-- How points beyond the limit of a system are treated, if a base point is beyond it. -/
def beyond? {α : Type} [Neg α] [LT α] [DecidableLT α] (e : Entry α) (base : Triple α) :
    Option Beyond :=
  match e.limit with
  | some (limit, beyond) => if limit < base.y ∨ base.y < -limit then some beyond else none
  | none => none

/-- The coordinates of a base point in a system. Beyond a limit they may be spoilt. -/
def arrive (e : Entry Double) (base : Point) : Point :=
  let p := e.fromBase base
  match beyond? e base with
  | some .infinite => Triple.all (Double.infinity)
  | some .heightLost =>
    { p with z := Double.nan }
  | _ => p

def transformOne (source target : Entry Double) (p : Point) : Except String Point :=
  let base := source.toBase p
  match beyond? target base with
  | some .refused => .error "transform error: Invalid coordinate"
  | _ => .ok (arrive target base)

def transformMany (source target : Entry Double) (ps : List Point) : Except String (List Point) :=
  let bases := ps.map source.toBase
  match (bases.filterMap (beyond? target)).head? with
  | some .refused => .error "transform error: Invalid coordinate"
  | some .rowRefused => .error "transform error: bulk failure"
  | _ => .ok (bases.map (arrive target))

theorem length_of_transformMany {source target : Entry Double} {ps qs : List Point}
    (h : transformMany source target ps = .ok qs) : qs.length = ps.length := by
  simp only [transformMany] at h
  split at h
  · cases h
  · cases h
  · cases h
    simp

def connect (source target : System) : Except String Operation :=
  match find? source.key, find? target.key with
  | some a, some b =>
    if a.group = b.group then
      .ok ⟨transformOne a b, transformMany a b, length_of_transformMany⟩
    else .error "no operation found"
  | _, _ => .error "no operation found"

/-- The backend of local systems. -/
def backend : Backend :=
  ⟨find, connect⟩

end PointStream.Local

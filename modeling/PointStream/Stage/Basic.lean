import PointStream.Crs.Transform
import PointStream.Generator.Basic
import PointStream.Table

namespace PointStream

/-- A stage that adds nothing of its own to what all stages do. -/
structure Plain where
  typeName : String
  description : String
  /-- The ways to visit that the stage claims to support. -/
  visits : List Visit

/-- What a reprojection was set up to do. -/
structure Reprojection where
  output : SpatialReference
  /-- The input reference, unless it is to be that of the stage before. -/
  input : Option SpatialReference

/-- The kinds of sources. -/
inductive SourceKind where
  | generated (g : Generator)
  | plain (p : Plain)

/-- The kinds of filters. -/
inductive FilterKind where
  | reprojection (r : Reprojection)
  | plain (p : Plain)

/-- The definition of a stage. -/
inductive Stage where
  | source (number : Nat) (options : Options) (kind : SourceKind)
  | filter (number : Nat) (options : Options) (kind : FilterKind) (previous : Stage)
  /-- A filter with something else in the place of the stage before it: a value, or nothing. -/
  | loose (number : Nat) (options : Options) (kind : FilterKind) (given : Option Value)

namespace SourceKind

def typeName : SourceKind → String
  | generated _ => "readers.faux"
  | plain p => p.typeName

def description : SourceKind → String
  | generated _ => "Faux Reader"
  | plain p => p.description

end SourceKind

namespace FilterKind

def typeName : FilterKind → String
  | reprojection _ => "filters.reprojection"
  | plain p => p.typeName

def description : FilterKind → String
  | reprojection _ => "Reprojection Filter"
  | plain p => p.description

end FilterKind

namespace Stage

def number : Stage → Nat
  | source n _ _ => n
  | filter n _ _ _ => n
  | loose n _ _ _ => n

def options : Stage → Options
  | source _ o _ => o
  | filter _ o _ _ => o
  | loose _ o _ _ => o

def typeName : Stage → String
  | source _ _ k => k.typeName
  | filter _ _ k _ => k.typeName
  | loose _ _ k _ => k.typeName

def description : Stage → String
  | source _ _ k => k.description
  | filter _ _ k _ => k.description
  | loose _ _ k _ => k.description

def isFilter : Stage → Bool
  | source _ _ _ => false
  | _ => true

/-- The stage before a filter. -/
def previous? : Stage → Option Stage
  | filter _ _ _ previous => some previous
  | _ => none

/-- The number of the stage at the head of a chain. -/
def root : Stage → Nat
  | source n _ _ => n
  | filter _ _ _ previous => previous.root
  | loose n _ _ _ => n

/-- A type name with options between parentheses. -/
def describeOptions (typeName : String) (options : Options) : String :=
  typeName ++ "("
    ++ ", ".intercalate (options.map fun option => option.1 ++ "=" ++ option.2.describe) ++ ")"

/-- The text that stands for a stage in descriptions: the stage, and what stands before it. -/
def describe : Stage → String
  | source _ o k => describeOptions k.typeName o
  | filter _ o k previous => describeOptions k.typeName o ++ " <- " ++ previous.describe
  | loose _ o k given =>
    describeOptions k.typeName o ++ " <- " ++ ((given.getD .null).describe)

/-- The number that a stage was given as an option, zero if none. -/
def id (s : Stage) : Except Failure Int :=
  match s.options.get? "id" with
  | none => .ok 0
  | some v => v.int

/-- Whether a stage can be visited in a certain way. A reprojection can be visited in order if the
stage before it can; without such a stage the question has no answer. -/
def supports (visit : Visit) : Stage → Except Failure Bool
  | source _ _ (.generated _) => .ok true
  | source _ _ (.plain p) => .ok (p.visits.contains visit)
  | filter _ _ (.plain p) _ => .ok (p.visits.contains visit)
  | loose _ _ (.plain p) _ => .ok (p.visits.contains visit)
  | filter _ _ (.reprojection _) previous =>
    match visit with
    | .random => .ok false
    | .sequential => previous.supports .sequential
  | loose _ _ (.reprojection _) _ =>
    match visit with
    | .random => .ok false
    | .sequential => .error .noSuchProperty

end Stage

/-- What is known about a stage at some time of its life. -/
structure Status where
  initialized : Bool
  schema : Schema
  bounds : Bounds
  reference : SpatialReference
  total : Nat
  /-- The input reference of a reprojection. -/
  input : SpatialReference
  transform : Option Transform

namespace Status

/-- The status of a stage about which nothing is known. -/
def unknown : Status :=
  { initialized := false
    schema := Schema.empty
    bounds := ⟨Triple.all 0, Triple.all 0⟩
    reference := .none
    total := 0
    input := .none
    transform := none }

instance : Inhabited Status :=
  ⟨unknown⟩

end Status

/-- The reference that an option gives, none if the option is not given. -/
def Options.reference (options : Options) (key : String) : SpatialReference :=
  SpatialReference.ofValue ((options.get? key).getD .null)

/-- The status of a stage that was just defined: only the references of its options are known. -/
def Stage.initialStatus (s : Stage) : Status :=
  let input : SpatialReference := match s with
    | .filter _ _ (.reprojection r) _ => r.input.getD .none
    | .loose _ _ (.reprojection r) _ => r.input.getD .none
    | _ => .none
  { Status.unknown with
    reference := s.options.reference "spatialreference"
    input := input }

/-- The statuses of all stages by their numbers. -/
abbrev Statuses := Table Status

def Statuses.none : Statuses :=
  Table.constant Status.unknown

end PointStream

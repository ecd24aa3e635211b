import PointStream.Json.Reader

namespace PointStream

/-- The ways in which stages and their iterators are visited. -/
inductive Visit where
  | sequential
  | random
deriving DecidableEq, Repr

def Visit.name : Visit → String
  | sequential => "sequential"
  | random => "random"

/-- Which end of a transformation a descriptor belongs to. -/
inductive Role where
  | input
  | output
deriving DecidableEq, Repr

def Role.name : Role → String
  | input => "input"
  | output => "output"

/-- A cause of failure. -/
inductive Failure where
  /-- A value gives no number. -/
  | number (fault : NumberFault)
  /-- A value is of a kind that the operation does not take. -/
  | wrongKind
  /-- An operation was given too many values, two values for one parameter, or none. -/
  | arguments
  | noSuchIndex
  /-- An object does not have the property or operation asked for. -/
  | noSuchProperty
  | noSuchName
  /-- Values do not fit the place they are written to, or there are none. -/
  | misfit
  | json
  | unknownSystem (diagnostic : String)
  | boundsText (text : String)
  | unknownDimension (key : String)
  | dimensionMissing (d : Dimension) (schema : Schema)
  | dimensionRepeated (d : Dimension)
  | unknownMode (v : Value)
  | negativeCapacity (n : Number)
  /-- The count of points of a buffer is outside its capacity. -/
  | pointCount (n : Number) (capacity : Nat)
  /-- A point index is outside the capacity of a buffer. -/
  | pointIndex (n : Number) (capacity : Nat)
  /-- A field was asked for with a type that is not its own. -/
  | fieldType (index : Number) (declared given : String)
  | emptyBuffer
  | boundsRequired
  | pointsRequired
  | negativePoints (n : Int)
  /-- A seed is not a number of 128 bits. -/
  | seedRange (n : Int)
  | outputRequired
  | unknownStage (name : String) (available : List String)
  | alreadyInitialized (stage : String)
  | notInitialized (stage : String)
  | unsupportedVisit (stage : String) (visit : Visit)
  /-- A filter stands behind no stage. -/
  | sourceRequired (stage : String)
  | noTransform (stage : String)
  /-- A stage leaves an operation open. -/
  | notImplemented
  /-- A schema lacks coordinates. -/
  | impedance (missing : List String)
  | noInputReference
  /-- The descriptor at one end of a transformation names no system. -/
  | importFailed (role : Role) (descriptor diagnostic : String)
  /-- The descriptor whose horizontal part was asked for names no system. -/
  | horizontalFailed (descriptor diagnostic : String)
  /-- No transformation leads from one system to another. -/
  | constructionFailed (source target diagnostic : String)
  | released
  /-- The coordinate backend refused to transform. -/
  | projection (diagnostic : String)
  | nonFinite
  /-- A point cannot be transformed. -/
  | pointProjection (point : Point) (diagnostic : String)
  /-- A buffer cannot be transformed although each of its points can. -/
  | bufferProjection (diagnostic : String)
  | negativeSkip (n : Number)
  | negativePosition (n : Number)
  /-- A pipeline definition is neither a record nor a list. -/
  | pipelineShape
  /-- A pipeline definition holds something that defines no stage. -/
  | invalidStage (v : Value)
  | sourceNotFirst (definition : Value)
  | filterFirst (definition : Value)
  /-- A definition is neither that of a source nor that of a filter. -/
  | unknownStageKind (definition : Value)
  | noStages
  /-- A pipeline does not hang together. -/
  | invalidPipeline (problems : List String)
  | chunkSize (n : Number)
  /-- An option value has no JSON text. -/
  | notSerializable (v : Value)

namespace Failure

/-- The result of the backend when a transformation is not finite. -/
def nonFiniteDiagnostic : String :=
  "non-finite result"

/-- A list of names between brackets, each name quoted. -/
def quotedList (names : List String) : String :=
  Text.bracketed (names.map Text.quoted)

/-- What the backend or the transformation reported. -/
def diagnostic : Failure → String
  | importFailed _ _ d => d
  | horizontalFailed _ d => d
  | constructionFailed _ _ d => d
  | projection d => d
  | nonFinite => nonFiniteDiagnostic
  | pointProjection _ d => d
  | bufferProjection d => d
  | _ => ""

/-- The text of the references that could not be used. -/
def descriptor : Failure → String
  | importFailed _ text _ => text
  | horizontalFailed text _ => text
  | constructionFailed source target _ => source ++ " -> " ++ target
  | _ => ""

def pointText (p : Point) : String :=
  "(" ++ ", ".intercalate (p.toList.map Decimal.shortest) ++ ")"

/-- The message of a failure, if the library words one. -/
def message? : Failure → Option String
  | number _ => none
  | wrongKind => none
  | arguments => none
  | noSuchIndex => none
  | noSuchProperty => none
  | noSuchName => none
  | misfit => none
  | json => none
  | unknownSystem _ => none
  | boundsText s =>
    some ("Invalid bounds: '" ++ s ++ "'. Expected: '([xmin, xmax], [ymin, ymax])' or "
      ++ "'([xmin, xmax], [ymin, ymax], [zmin, zmax])'")
  | unknownDimension key =>
    some ("Unknown dimension '" ++ key ++ "'. Available: "
      ++ quotedList (Dimension.all.map Dimension.id))
  | dimensionMissing d s =>
    some ("Dimension '" ++ d.id ++ "' not found. Available: " ++ quotedList s.ids)
  | dimensionRepeated d => some ("Dimension '" ++ d.id ++ "' appears more than once")
  | unknownMode v =>
    some ("Unknown faux mode '" ++ v.toText ++ "'. Available: "
      ++ quotedList (Mode.all.map Mode.name))
  | negativeCapacity n => some ("Capacity must be non-negative, got " ++ n.text)
  | pointCount n capacity =>
    some ("Point count " ++ n.text ++ " outside [0, " ++ Text.natText capacity ++ "]")
  | pointIndex n capacity =>
    some ("Point index " ++ n.text ++ " out of range for capacity " ++ Text.natText capacity)
  | fieldType index declared given =>
    some ("Dimension " ++ index.text ++ " is declared as " ++ declared ++ ", not " ++ given)
  | emptyBuffer => some "Cannot compute bounds of an empty buffer"
  | boundsRequired => some "FauxReader requires 'bounds' option"
  | pointsRequired => some "FauxReader requires 'num_points' option"
  | negativePoints n => some ("num_points must be non-negative, got " ++ Text.intText n)
  | seedRange n => some ("seed must be in [0, 2**128), got " ++ Text.intText n)
  | outputRequired => some "ReprojectionFilter requires 'out_srs' option"
  | unknownStage name available =>
    some ("Unknown stage '" ++ name ++ "'. Available: " ++ quotedList available)
  | alreadyInitialized stage => some (stage ++ " is already initialized")
  | notInitialized stage => some (stage ++ " must be initialized before use")
  | unsupportedVisit stage visit =>
    some (stage ++ " does not support " ++ visit.name ++ " iteration")
  | sourceRequired stage => some (stage ++ " requires an upstream stage")
  | noTransform stage => some (stage ++ " has no coordinate transformation")
  | notImplemented => some ""
  | impedance missing =>
    some ("Reprojection filter requires X,Y,Z dimensions as doubles (missing: "
      ++ ", ".intercalate missing ++ ")")
  | noInputReference =>
    some ("No input spatial reference: set 'in_srs' option or give the "
      ++ "upstream stage a spatial reference")
  | importFailed role descriptor d =>
    some ("Could not import " ++ role.name ++ " spatial reference: " ++ d ++ " wkt: '"
      ++ descriptor ++ "'")
  | horizontalFailed _ d => some ("Could not import spatial reference: " ++ d)
  | constructionFailed _ _ d => some ("Could not construct coordinate transformation: " ++ d)
  | released => some "Coordinate transformation has been released"
  | projection d => some ("Could not project point: " ++ d)
  | nonFinite => some ("Could not project point: " ++ nonFiniteDiagnostic)
  | pointProjection p d => some ("Could not project point " ++ pointText p ++ ": " ++ d)
  | bufferProjection d => some ("Could not project buffer: " ++ d)
  | negativeSkip n => some ("Cannot skip a negative number of points: " ++ n.text)
  | negativePosition n => some ("Cannot seek to a negative position: " ++ n.text)
  | pipelineShape => some "Pipeline JSON must be a dict with 'pipeline' key or a list"
  | invalidStage v => some ("Invalid pipeline stage: " ++ v.describe)
  | sourceNotFirst v => some ("Reader must be the first stage: " ++ v.toText)
  | filterFirst v => some ("Filter has no upstream stage: " ++ v.toText)
  | unknownStageKind v => some ("Cannot determine stage type: " ++ v.toText)
  | noStages => some "Pipeline has no stages"
  | invalidPipeline problems => some ("Invalid pipeline: " ++ "; ".intercalate problems)
  | chunkSize n => some ("chunk_size must be positive, got " ++ n.text)
  | notSerializable v => some ("Option value " ++ v.describe ++ " is not JSON serializable")

/-- Whether a stage was not in the state that an operation asks for. -/
def ofPrecondition : Failure → Bool
  | alreadyInitialized _ => true
  | notInitialized _ => true
  | unsupportedVisit _ _ => true
  | sourceRequired _ => true
  | noTransform _ => true
  | _ => false

/-- Whether a failure comes from looking for a system or a transformation. -/
def ofAcquisition : Failure → Bool
  | noInputReference => true
  | importFailed _ _ _ => true
  | horizontalFailed _ _ => true
  | constructionFailed _ _ _ => true
  | _ => false

/-- Whether a failure comes from transforming coordinates. -/
def ofTransform : Failure → Bool
  | released => true
  | projection _ => true
  | nonFinite => true
  | pointProjection _ _ => true
  | bufferProjection _ => true
  | _ => false

end Failure

/-- The double that a value gives, or the failure to give one. -/
def Value.double (v : Value) : Except Failure Double :=
  v.toDouble.mapError .number

/-- The whole number that a value gives, or the failure to give one. -/
def Value.int (v : Value) : Except Failure Int :=
  v.toInt.mapError .number

/-- The number that a value is, or the failure to be one. -/
def Value.number (v : Value) : Except Failure Number :=
  match v.number? with
  | some n => .ok n
  | none => .error .wrongKind

/-- The schema of a list of dimensions, or the failure to form one. -/
def Schema.ofDimensions (ds : List Dimension) : Except Failure Schema :=
  (Schema.ofList? ds).mapError .dimensionRepeated

/-- The dimension that a key names, or the failure to name one. -/
def Dimension.ofKey (key : String) : Except Failure Dimension :=
  match Dimension.ofKey? key with
  | some d => .ok d
  | none => .error (.unknownDimension key)

/-- The column of a dimension, or the failure to have one. -/
def Schema.columnOf (s : Schema) (d : Dimension) : Except Failure Nat :=
  match s.columnOf? d with
  | some column => .ok column
  | none => .error (.dimensionMissing d s)

/-- The mode that an option value gives: a mode itself, or one named by the text of the value. -/
def Mode.ofValue : Value → Except Failure Mode
  | .mode m => .ok m
  | v =>
    match Mode.ofText? v.toText with
    | some m => .ok m
    | none => .error (.unknownMode v)

end PointStream

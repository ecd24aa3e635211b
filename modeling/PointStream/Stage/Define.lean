import PointStream.Bounds.Reading
import PointStream.Stage.Basic

namespace PointStream

/-- Options with the parameters behind the others, in the order of the parameters. -/
def Options.withParameters (options : Options) (parameters : List String) : Options :=
  options.filter (fun option => !parameters.contains option.1)
    ++ parameters.filterMap fun name =>
      match options.get? name with
      | none => none
      | some .null => none
      | some v => some (name, v)

/-- The value of an option, or the failure that says that it is required. -/
def Options.require (options : Options) (key : String) (e : Failure) : Except Failure Value :=
  match options.get? key with
  | none => .error e
  | some v => .ok v

/-- The dimension that an item of a list of dimensions gives. -/
def Dimension.ofItem : Value → Except Failure Dimension
  | .dimension d => .ok d
  | .dimensionId d => .ok d
  | v => Dimension.ofKey v.toText

/-- The schema that an option gives: that of the dimensions in the value, or the standard one. -/
def Schema.ofOption : Option Value → Except Failure Schema
  | none => .ok Schema.standard
  | some v =>
    match v.items? with
    | none => .error .wrongKind
    | some items => do
      let ds ← items.mapM Dimension.ofItem
      Schema.ofDimensions ds

namespace Generator

def parameters : List String :=
  ["bounds", "num_points", "mode", "dimensions"]

/-- The number of points that an option gives. -/
def totalOf (v : Value) : Except Failure Nat := do
  let n ← v.int
  if n < 0 then throw (.negativePoints n)
  pure n.toNat

/-- The seed that an option gives; without one, a seed that was drawn beforehand. -/
def seedOf (drawn : Nat) : Option Value → Except Failure Nat
  | none => .ok drawn
  | some .null => .ok drawn
  | some v => do
    let n ← v.int
    if n < 0 ∨ 2 ^ 128 ≤ n then throw (.seedRange n)
    pure n.toNat

/-- The generator that options set up. -/
def ofOptions (drawn : Nat) (options : Options) : Except Failure Generator := do
  let box ← options.require "bounds" .boundsRequired
  let points ← options.require "num_points" .pointsRequired
  let bounds ← Bounds.ofValue box
  let total ← totalOf points
  let mode ← Mode.ofValue ((options.get? "mode").getD (.mode .random))
  let schema ← Schema.ofOption (options.get? "dimensions")
  let seed ← seedOf drawn (options.get? "seed")
  pure { bounds, total, mode, schema, seed }

end Generator

namespace Reprojection

def parameters : List String :=
  ["in_srs", "out_srs"]

/-- The reprojection that options set up. -/
def ofOptions (options : Options) : Except Failure Reprojection := do
  let output ← options.require "out_srs" .outputRequired
  pure
    { output := SpatialReference.ofValue output
      input := (options.get? "in_srs").map SpatialReference.ofValue }

end Reprojection

/-- What a definition gives as the stage before a filter. -/
inductive Previous where
  /-- It gives none, but an argument may do so. -/
  | absent
  /-- It gives nothing on purpose. -/
  | nothing
  | stage (s : Stage)
  | other (v : Value)

/-- What a definition gives, as a value. -/
def Previous.value? : Previous → Option Value
  | absent => none
  | nothing => none
  | stage s => some (.described s.number s.describe)
  | other v => some v

/-- The kinds of stages that a registry can hold. -/
inductive BuiltIn where
  | reader
  | reprojection
deriving DecidableEq, Repr

namespace BuiltIn

def typeName : BuiltIn → String
  | reader => "readers.faux"
  | reprojection => "filters.reprojection"

end BuiltIn

namespace Stage

/-- Refuses arguments under names that are set aside. -/
def checkNames (reserved : List String) (arguments : Options) : Except Failure Unit :=
  if arguments.any fun argument => reserved.contains argument.1 then .error .arguments else .ok ()

def reserved : List String :=
  ["self"]

def defineReader (number drawn : Nat) (arguments : Options) : Except Failure Stage := do
  checkNames reserved arguments
  let options := arguments.withParameters Generator.parameters
  let g ← Generator.ofOptions drawn options
  pure (.source number options (.generated g))

/-- A filter behind a stage, behind nothing, or behind what an argument gives. -/
def defineFilter (number : Nat) (previous : Previous) (arguments : Options)
    (kind : Options → Except Failure (Options × FilterKind)) : Except Failure Stage := do
  checkNames reserved arguments
  match previous, arguments.get? "prev_stage" with
  | .absent, none => throw .arguments
  | .absent, some v => do
    let (options, k) ← kind (arguments.erase "prev_stage")
    let given := match v with
      | .null => none
      | v => some v
    pure (.loose number options k given)
  | .nothing, none => do
    let (options, k) ← kind arguments
    pure (.loose number options k none)
  | .other v, none => do
    let (options, k) ← kind arguments
    pure (.loose number options k (some v))
  | .stage s, none => do
    let (options, k) ← kind arguments
    pure (.filter number options k s)
  | _, some _ => throw .arguments

/-- A filter that reprojects points. -/
def defineReprojection (number : Nat) (previous : Previous) (arguments : Options) :
    Except Failure Stage :=
  defineFilter number previous arguments fun arguments => do
    let options := arguments.withParameters Reprojection.parameters
    let r ← Reprojection.ofOptions options
    pure (options, .reprojection r)

def definePlainFilter (number : Nat) (plain : Plain) (previous : Previous) (arguments : Options) :
    Except Failure Stage :=
  defineFilter number previous arguments fun options => .ok (options, .plain plain)

def definePlainSource (number : Nat) (plain : Plain) (arguments : Options) :
    Except Failure Stage := do
  checkNames reserved arguments
  pure (.source number arguments (.plain plain))

/-- A stage of a registered kind. A source takes what is given as the stage before it for its
box. -/
def define (kind : BuiltIn) (number drawn : Nat) (previous : Previous) (arguments : Options) :
    Except Failure Stage :=
  match kind with
  | .reprojection => defineReprojection number previous arguments
  | .reader =>
    match previous.value? with
    | none => defineReader number drawn arguments
    | some box =>
      if (arguments.get? "bounds").isSome then .error .arguments
      else defineReader number drawn (("bounds", box) :: arguments)

end Stage

end PointStream

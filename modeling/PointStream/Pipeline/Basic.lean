import PointStream.Json.Printer
import PointStream.World

namespace PointStream

/-- A list of stages with a number of its own. -/
structure Pipeline where
  number : Nat
  stages : List Stage

/-- An element of the definition of a pipeline. -/
inductive Definition where
  | stage (s : Stage)
  | value (v : Value)

namespace Pipeline

/-- The stage that a record defines behind the stages before it. -/
def defineStage (stages : List Stage) (record : Options) (w : World) :
    Except Failure (Stage × World) :=
  match (record.get? "type").getD (.text "") with
  | .text typeName =>
    let options := record.erase "type"
    let make (previous : Previous) (number : Nat) : Except Failure Stage :=
      Registry.standard.make (.text typeName) number w.drawn previous options
    if "readers.".toList.isPrefixOf typeName.toList then
      if stages.isEmpty then w.define (make .absent)
      else .error (.sourceNotFirst (.record record))
    else if "filters.".toList.isPrefixOf typeName.toList then
      match stages.getLast? with
      | none => .error (.filterFirst (.record record))
      | some previous => w.define (make (.stage previous))
    else .error (.unknownStageKind (.record record))
  | _ => .error .noSuchProperty

/-- The stages that definitions give, behind the stages before them. -/
def defineStages (stages : List Stage) (w : World) :
    List Definition → Except Failure (List Stage × World)
  | [] => .ok (stages, w)
  | .stage s :: rest => defineStages (stages ++ [s]) w rest
  | .value (.record record) :: rest =>
    match defineStage stages record w with
    | .error e => .error e
    | .ok (s, w) => defineStages (stages ++ [s]) w rest
  | .value v :: _ => .error (.invalidStage v)

/-- The pipeline of some definitions. -/
def ofDefinitions (definitions : List Definition) (w : World) :
    Except Failure (Pipeline × World) :=
  match defineStages [] w definitions with
  | .error e => .error e
  | .ok (stages, w) => .ok (⟨w.pipelines, stages⟩, { w with pipelines := w.pipelines + 1 })

/-- The definitions that a JSON value holds: those under a key of a record, or those of a list. -/
def definitionsOf (v : Value) : Except Failure (List Definition) :=
  let definitions : Except Failure Value := match v with
    | .record members => .ok ((Options.get? members "pipeline").getD (.list []))
    | .list items => .ok (.list items)
    | _ => .error .pipelineShape
  match definitions with
  | .error e => .error e
  | .ok definitions =>
    match definitions.items? with
    | none => .error .wrongKind
    | some items => .ok (items.map .value)

def ofJson (text : String) (w : World) : Except Failure (Pipeline × World) :=
  match Json.read? text with
  | none => .error .json
  | some v =>
    match definitionsOf v with
    | .error e => .error e
    | .ok definitions => ofDefinitions definitions w

/-- The last stage, from which points are drawn. -/
def last (p : Pipeline) : Except Failure Stage :=
  match p.stages.getLast? with
  | none => .error .noStages
  | some s => .ok s

/-- What is wrong with a stage behind another one. -/
def linkProblem? (before s : Stage) : Option String :=
  if !s.isFilter then some (s.typeName ++ " is not a filter")
  else if s.previous?.map Stage.number = some before.number then none
  else some (s.typeName ++ " is not attached to " ++ before.typeName)

def linkProblems : List Stage → List String
  | before :: s :: rest => (linkProblem? before s).toList ++ linkProblems (s :: rest)
  | _ => []

def problems (p : Pipeline) : List String :=
  match p.stages with
  | [] => ["Pipeline has no stages"]
  | first :: _ =>
    (if first.isFilter then ["Pipeline must start with a reader"] else []) ++ linkProblems p.stages

/-- Prepares the last stage, and with it all stages, if that is still to be done. -/
def prepare (backend : Backend) (p : Pipeline) (w : World) : Except Failure Unit × World :=
  match p.problems with
  | [] =>
    match p.last with
    | .error e => (.error e, w)
    | .ok s =>
      if (s.status w.statuses).initialized then (.ok (), w)
      else w.changing (s.prepare backend)
  | problems => (.error (.invalidPipeline problems), w)

/-- Closes all stages, the last one first. -/
def close (p : Pipeline) (w : World) : World :=
  { w with statuses := p.stages.foldr (fun s statuses => s.close statuses) w.statuses }

/-- What is known about the points of a pipeline, nothing before it is prepared. -/
def metadata (p : Pipeline) (w : World) : Options :=
  match p.stages.getLast? with
  | none => []
  | some s =>
    let known := s.status w.statuses
    if known.initialized then
      [("point_count", .whole known.total),
        ("dimensions", .list (known.schema.ids.map .text)),
        ("bounds", .text known.bounds.text),
        ("spatialreference", .text known.reference.text)]
    else []

/-- A stage as a record: its type and its options. -/
def recordOf (s : Stage) : Value :=
  .record (s.options.foldl (fun record option => Options.put record option.1 option.2)
    [("type", .text s.typeName)])

def toJson (p : Pipeline) : Except Failure String :=
  (Json.text (.lines 0) (.record [("pipeline", .list (p.stages.map recordOf))])).mapError
    .notSerializable

def describe (p : Pipeline) : String :=
  "Pipeline(" ++ " -> ".intercalate (p.stages.map Stage.typeName) ++ ")"

end Pipeline

end PointStream

import PointStream.Pipeline.Run

/-!
# Mentions

A stage may mention what is no stage in the place of the stage before it, or as an option, and then
describes itself by the description of that object. A definition holds the description as a text, so
the text has to be brought up to date when the object changes, in all definitions and wherever they
are kept: by the functions of this module.
-/

namespace PointStream

/-- A value after the object of a number has got a new description. -/
def Value.redescribe (number : Nat) (text : String) : Value → Value
  | .described n old => .described n (if n = number then text else old)
  | v => v

def Options.redescribe (number : Nat) (text : String) (options : Options) : Options :=
  options.map fun option => (option.1, option.2.redescribe number text)

/-- A stage after the object of a number has got a new description. What the stage was set up to do
stays as it is, even if it was read from an older description. -/
def Stage.redescribe (number : Nat) (text : String) : Stage → Stage
  | source n o kind => source n (o.redescribe number text) kind
  | filter n o kind previous =>
    filter n (o.redescribe number text) kind (previous.redescribe number text)
  | loose n o kind given =>
    loose n (o.redescribe number text) kind (given.map (Value.redescribe number text))

def SourceCursor.redescribe (number : Nat) (text : String) (c : SourceCursor) : SourceCursor :=
  { c with stage := c.stage.redescribe number text }

def Cursor.redescribe (number : Nat) (text : String) : Cursor → Cursor
  | source c => source (c.redescribe number text)
  | reprojected s index inner =>
    reprojected (s.redescribe number text) index (inner.redescribe number text)

def Pipeline.redescribe (number : Nat) (text : String) (p : Pipeline) : Pipeline :=
  { p with stages := p.stages.map (Stage.redescribe number text) }

def Run.redescribe (number : Nat) (text : String) (r : Run) : Run :=
  let phase : Phase := match r.phase with
    | .delivered cursor layout points =>
      .delivered (cursor.redescribe number text) layout points
    | phase => phase
  { r with pipeline := r.pipeline.redescribe number text, phase }

@[simp]
theorem Stage.number_redescribe (number : Nat) (text : String) (s : Stage) :
    (s.redescribe number text).number = s.number := by
  cases s <;> rfl

@[simp]
theorem Stage.typeName_redescribe (number : Nat) (text : String) (s : Stage) :
    (s.redescribe number text).typeName = s.typeName := by
  cases s <;> rfl

@[simp]
theorem Stage.root_redescribe (number : Nat) (text : String) (s : Stage) :
    (s.redescribe number text).root = s.root := by
  induction s with
  | source n o kind => rfl
  | filter n o kind previous ih => exact ih
  | loose n o kind given => rfl

end PointStream

import PointStream.Stage.Define

namespace PointStream

/-- The kinds of stages that can be made by name. -/
structure Registry where
  kinds : List BuiltIn

namespace Registry

def empty : Registry :=
  ⟨[]⟩

def standard : Registry :=
  ⟨[.reprojection, .reader]⟩

/-- Adds a kind; one that is known keeps its place. -/
def register (r : Registry) (kind : BuiltIn) : Registry :=
  if r.kinds.contains kind then r else ⟨r.kinds ++ [kind]⟩

/-- The names of the types of the known kinds. -/
def available (r : Registry) : List String :=
  r.kinds.map BuiltIn.typeName

/-- The names that no argument may have. -/
def reserved : List String :=
  ["self", "type_name"]

def find (r : Registry) (name : Value) : Except Failure BuiltIn :=
  match name with
  | .list _ => .error .wrongKind
  | .record _ => .error .wrongKind
  | .text s =>
    match r.kinds.find? fun kind => kind.typeName == s with
    | some kind => .ok kind
    | none => .error (.unknownStage s r.available)
  | v => .error (.unknownStage v.toText r.available)

def make (r : Registry) (name : Value) (number drawn : Nat) (previous : Previous)
    (arguments : Options) : Except Failure Stage := do
  Stage.checkNames reserved arguments
  let kind ← r.find name
  Stage.define kind number drawn previous arguments

end Registry

end PointStream

import PointStream.Mention

/-!
# Sessions

In a session objects are made and used under names. An object has a number as well: a name may pass
to another object, and a stage that mentions an object means the object and not its name. The text by
which a stage describes an object it mentions follows the object, so `Session.refresh` brings all
such texts up to date after a change.
-/

namespace PointStream

/-- What has a name in a session. -/
inductive Object where
  | stage (s : Stage)
  | cursor (c : Cursor)
  | random (c : SourceCursor)
  | transform (t : Transform)
  | buffer (b : Buffer)
  | pipeline (p : Pipeline)
  | run (r : Run)
  | registry (r : Registry)

namespace Object

/-- The text that describes an object. -/
def describe : Object → String
  | stage s => s.describe
  | cursor c => c.describe
  | random c => c.describe
  | transform t => t.describe
  | buffer b => b.describe
  | pipeline p => p.describe
  | run _ => "<generator>"
  | registry _ => "<registry>"

/-- An object after the object of a number has got a new description. -/
def redescribe (number : Nat) (text : String) : Object → Object
  | stage s => stage (s.redescribe number text)
  | cursor c => cursor (c.redescribe number text)
  | random c => random (c.redescribe number text)
  | pipeline p => pipeline (p.redescribe number text)
  | run r => run (r.redescribe number text)
  | transform t => transform t
  | buffer b => buffer b
  | registry r => registry r

end Object

/-- The objects of a session and the world they live in. -/
structure Session where
  world : World
  /-- The numbers of the objects by their names. -/
  names : List (String × Nat)
  objects : List (Nat × Object)
  /-- The numbers of the objects that stages mention, in ascending order. -/
  mentioned : List Nat
  /-- How many layouts were made that belong to no stage. -/
  layouts : Nat

namespace Session

def start (drawn : Nat) : Session :=
  ⟨World.start drawn, [], [], [], 0⟩

/-- The object of a number. -/
def object? (s : Session) (number : Nat) : Option Object :=
  s.objects.lookup number

def find? (s : Session) (name : String) : Option (Nat × Object) := do
  let number ← s.names.lookup name
  let o ← s.object? number
  pure (number, o)

def get? (s : Session) (name : String) : Option Object :=
  (s.find? name).map Prod.snd

/-- The session without the object of a number. -/
def drop (s : Session) (number : Nat) : Session :=
  { s with objects := s.objects.filter fun o => o.1 != number }

/-- Replaces the object of a number. -/
def put (s : Session) (number : Nat) (o : Object) : Session :=
  let s := s.drop number
  { s with objects := (number, o) :: s.objects }

theorem lookup_filter (objects : List (Nat × Object)) {number other : Nat} (h : other ≠ number) :
    (objects.filter fun o => o.1 != number).lookup other = objects.lookup other := by
  induction objects with
  | nil => rfl
  | cons o objects ih =>
    obtain ⟨first, o⟩ := o
    by_cases ho : first = number
    · have hne : (other == number) = false := by simp [h]
      simp [List.lookup_cons, ho, hne, ih]
    · simp [List.lookup_cons, ho, ih]

theorem object?_put (s : Session) (number other : Nat) (o : Object) :
    (s.put number o).object? other = if other = number then some o else s.object? other := by
  by_cases h : other = number
  · simp [put, object?, h]
  · have hne : (other == number) = false := by simp [h]
    simp [put, drop, object?, List.lookup_cons, hne, h, lookup_filter s.objects h]

/-- Gives a name to the object of a number. The object that had the name is kept only if a stage
mentions it. -/
def assign (s : Session) (name : String) (number : Nat) (o : Object) : Session :=
  let s := match s.names.lookup name with
    | some old => if s.mentioned.contains old then s else s.drop old
    | none => s
  let names := (name, number) :: s.names.filter fun n => n.1 != name
  { s with names }.put number o

/-- Gives a name to a stage, which has a number already. -/
def addStage (s : Session) (name : String) (stage : Stage) : Session :=
  s.assign name stage.number (.stage stage)

/-- Gives a name and a number to an object that is no stage. -/
def add (s : Session) (name : String) (o : Object) : Session :=
  let (number, world) := s.world.number
  { s with world }.assign name number o

/-- Takes note that a stage mentions the object of a number. -/
def mention (s : Session) (number : Nat) : Session :=
  if s.mentioned.contains number then s
  else { s with mentioned := (number :: s.mentioned).mergeSort }

/-- Brings the description of a mentioned object up to date. -/
def refreshOne (s : Session) (number : Nat) : Session :=
  match s.object? number with
  | none => s
  | some o =>
    let text := o.describe
    { s with objects := s.objects.map fun (n, o) => (n, o.redescribe number text) }

/-- Brings the descriptions of all mentioned objects up to date. An object mentions only objects
with lower numbers, so each of them is described after those that it mentions. -/
def refresh (s : Session) : Session :=
  s.mentioned.foldl refreshOne s

end Session

end PointStream

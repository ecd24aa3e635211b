import PointStream.Registry
import PointStream.Stage.Prepare

/-!
# What changes

Stages and pipelines are fixed definitions with numbers. All that changes in the course of a session
is kept here: the statuses of the stages, and for each pipeline how many points its last run has
delivered. Whatever else a stage may mention has a number of the same kind as a stage.
-/

namespace PointStream

/-- The changing part of a session. -/
structure World where
  /-- How many numbers have been given to stages and to what stages may mention. -/
  numbers : Nat
  statuses : Statuses
  pipelines : Nat
  counts : Table Nat
  /-- The seed of the sources that are not given one. -/
  drawn : Nat

namespace World

def start (drawn : Nat) : World :=
  ⟨0, Statuses.none, 0, Table.constant 0, drawn⟩

/-- Gives out the next number. -/
def number (w : World) : Nat × World :=
  (w.numbers, { w with numbers := w.numbers + 1 })

/-- Defines a stage under the next number. -/
def define (w : World) (make : Nat → Except Failure Stage) : Except Failure (Stage × World) :=
  match make w.numbers with
  | .error e => .error e
  | .ok s =>
    .ok (s,
      { w with
        numbers := w.numbers + 1
        statuses := w.statuses.set w.numbers s.initialStatus })

def changing {α : Type} (w : World) (change : Statuses → α × Statuses) : α × World :=
  let (a, statuses) := change w.statuses
  (a, { w with statuses })

/-- The number of points that the last run of a pipeline has delivered. -/
def count (w : World) (pipeline : Nat) : Nat :=
  w.counts.get pipeline

def setCount (w : World) (pipeline n : Nat) : World :=
  { w with counts := w.counts.set pipeline n }

end World

end PointStream

import PointStream.Geometry

/-!
# The box around columns of coordinates

The extremes of a column are found by comparing its values one after the other. Of equal values the
one that is compared last is kept, which tells the two zeros apart; so the order of the comparisons
is part of the rule. A column is compared from its first value on, in pieces if it was copied, and
each piece goes on from the extreme of those before it. Within a piece, whole rows of eight are
compared in eight lanes, each from top to bottom, and what is left in the end from the first to the
last.
-/

namespace PointStream.Bounds

/-- How the values of a column lie: side by side, each in a row of other values, or copied side by
side as far as there is room. -/
inductive Spacing where
  | packed
  | spaced
  | copied
deriving DecidableEq, Repr

/-- How many values are copied at a time. -/
def room : Nat :=
  8192

/-- A list cut into pieces of a size, of which the last may be shorter. A piece has at least one
value. -/
def cut {α : Type} (size : Nat) : List α → List (List α)
  | [] => []
  | x :: xs => (x :: xs.take (size - 1)) :: cut size (xs.drop (size - 1))
termination_by values => values.length

theorem flatten_cut {α : Type} (size : Nat) (values : List α) :
    (cut size values).flatten = values := by
  fun_induction cut size values with
  | case1 => rfl
  | case2 x xs ih => simp [ih]

/-- The values behind the first one in the pieces in which they are compared. The first value takes
a place in the first piece of a copied column. -/
def Spacing.pieces {α : Type} (values : List α) : Spacing → List (List α)
  | packed => [values]
  | spaced => [values]
  | copied => values.take (room - 1) :: cut room (values.drop (room - 1))

theorem Spacing.flatten_pieces {α : Type} (spacing : Spacing) (values : List α) :
    (spacing.pieces values).flatten = values := by
  cases spacing <;> simp [pieces, flatten_cut]

/-- The lanes in the order in which their results are compared. In a spaced column it is that of the
lanes. Side by side, the upper half of the lanes comes before the lower half, then of the four
results the upper two before the lower two, and of the last two results the first comes first. -/
def Spacing.lanes : Spacing → List Nat
  | packed | copied => [6, 2, 4, 0, 7, 3, 5, 1]
  | spaced => [0, 1, 2, 3, 4, 5, 6, 7]

/-- The values that each lane starts with. Side by side, every lane starts with the extreme so
far. -/
def Spacing.heads (best : Double) : Spacing → List Double
  | packed | copied => [best]
  | spaced => []

/-- The values of a piece in the order in which they are compared with the extreme so far. -/
def Spacing.visits (spacing : Spacing) (best : Double) (values : List Double) : List Double :=
  let cells := values.toArray
  let rows := cells.size / 8
  let lane (j : Nat) : List Double :=
    (List.range rows).map fun row => cells.getD (8 * row + j) best
  spacing.lanes.flatMap (fun j => spacing.heads best ++ lane j) ++ values.drop (8 * rows)

/-- The more extreme of two values by a comparison, the second of equal ones. A NaN is more extreme
than any number. -/
def moreExtreme (better : Double → Double → Bool) (x y : Double) : Double :=
  if x.isNaN || better x y then x else y

/-- The extreme by a comparison of a column with a given first value. -/
def extreme (better : Double → Double → Bool) (spacing : Spacing) (first : Double)
    (values : List Double) : Double :=
  (spacing.pieces values).foldl
    (fun best piece => (spacing.visits best piece).foldl (moreExtreme better) best) first

/-- The least and the greatest value of a column. -/
def extremes? (spacing : Spacing) : List Double → Option (Double × Double)
  | [] => none
  | x :: xs =>
    some (extreme (fun a b => a < b) spacing x xs, extreme (fun a b => b < a) spacing x xs)

/-- The box around three columns of coordinates, none of which may be empty. -/
def around? (columns : Triple (Spacing × List Double)) : Option Bounds := do
  let extremes ← columns.mapM fun column => extremes? column.1 column.2
  pure ⟨extremes.map Prod.fst, extremes.map Prod.snd⟩

end PointStream.Bounds

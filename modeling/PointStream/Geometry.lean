import PointStream.Double

namespace PointStream

/-- One value for each of the axes x, y and z. -/
structure Triple (α : Type) where
  x : α
  y : α
  z : α
deriving DecidableEq, Repr

namespace Triple

/-- The same value on every axis. -/
def all {α : Type} (a : α) : Triple α :=
  ⟨a, a, a⟩

/-- Applies a function on every axis. -/
def map {α β : Type} (f : α → β) (p : Triple α) : Triple β :=
  ⟨f p.x, f p.y, f p.z⟩

/-- Combines two triples axis by axis. -/
def zipWith {α β γ : Type} (f : α → β → γ) (p : Triple α) (q : Triple β) : Triple γ :=
  ⟨f p.x q.x, f p.y q.y, f p.z q.z⟩

/-- The three values in the order x, y, z. -/
def toList {α : Type} (p : Triple α) : List α :=
  [p.x, p.y, p.z]

/-- Applies a function that may fail on every axis, in the order x, y, z. -/
def mapM {m : Type → Type} [Monad m] {α β : Type} (f : α → m β) (p : Triple α) : m (Triple β) := do
  let x ← f p.x
  let y ← f p.y
  let z ← f p.z
  pure ⟨x, y, z⟩

end Triple

/-- An axis-aligned box, given by its two corners. -/
structure Box (α : Type) where
  minimum : Triple α
  maximum : Triple α
deriving DecidableEq, Repr

/-- The point of a box a given way from its minimum corner: zero is that corner and one the
opposite corner. -/
def Box.interpolate {α : Type} [Add α] [Sub α] [Mul α] (box : Box α) (t : Triple α) : Triple α :=
  let axis (lo hi t : α) : α := lo + (hi - lo) * t
  ⟨axis box.minimum.x box.maximum.x t.x, axis box.minimum.y box.maximum.y t.y,
    axis box.minimum.z box.maximum.z t.z⟩

/-- A point with double coordinates. -/
abbrev Point := Triple Double

/-- A box with double coordinates. -/
abbrev Bounds := Box Double

end PointStream

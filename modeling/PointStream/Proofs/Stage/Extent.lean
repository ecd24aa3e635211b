import PointStream.Proofs.Crs.Image
import PointStream.Proofs.Stage.Chain
import Mathlib.Algebra.Order.Field.Basic

namespace PointStream

/-- What it takes to follow a chain over a type of numbers: how indices become numbers, which numbers
count as finite, the box of the generator, and the place that is drawn for each index. -/
structure Arithmetic (α : Type) where
  ofNat : Nat → α
  isFinite : α → Bool
  box : Box α
  drawn : Nat → Triple α

/-- The arithmetic in which a generator makes its points. -/
def Arithmetic.doubles (g : Generator) : Arithmetic Double :=
  ⟨Double.ofNat, Double.isFinite, g.bounds,
    fun i => Generator.drawOfBlock (Philox.block g.key (i + 1))⟩

/-- Rational arithmetic, in which all numbers are finite. -/
def Arithmetic.exact (box : Box ℚ) (drawn : Nat → Triple ℚ) : Arithmetic ℚ :=
  ⟨fun n => n, fun _ => true, box, drawn⟩

/-- The box with both corners moved, or the box itself if one of them cannot be moved. -/
def Box.moved {α : Type} (move : Triple α → Option (Triple α)) (box : Box α) : Box α :=
  match move box.minimum, move box.maximum with
  | some minimum, some maximum => ⟨minimum, maximum⟩
  | _, _ => box

theorem Bounds.moved_eq (move : Point → Option Point) (box : Bounds) :
    Bounds.moved move box = Box.moved move box := by
  unfold Bounds.moved Box.moved
  cases move box.minimum with
  | none => rfl
  | some minimum => cases move box.maximum <;> rfl

namespace Stage

section

variable {α : Type} [Add α] [Sub α] [Mul α] [Div α] [Neg α] [LT α] [DecidableLT α] [OfScientific α]
  (A : Arithmetic α)

/-- Where a filter takes a point, between the references that its chain settles. -/
def moveIn (s : Stage) : Triple α → Option (Triple α) :=
  let m := s.metadata Local.backend
  Local.point? A.isFinite m.input.text m.reference.text

/-- The box that a chain settles for its last stage. -/
def boundsIn : Stage → Box α
  | filter n o k previous => (previous.boundsIn).moved ((filter n o k previous).moveIn A)
  | _ => A.box

/-- A point after all filters of a chain. -/
def carryIn : Stage → Triple α → Option (Triple α)
  | filter n o k previous, p => (previous.carryIn p).bind ((filter n o k previous).moveIn A)
  | _, p => some p

/-- The point with a global index behind a chain, if all filters take it. -/
def pointIn (g : Generator) (s : Stage) (i : Nat) : Option (Triple α) :=
  s.carryIn A (Generator.place A.ofNat A.box g.mode g.total (A.drawn i) i)

/-- Whether each filter of a chain takes both corners of the box before it. -/
def TakesCorners : Stage → Prop
  | filter n o k previous =>
    previous.TakesCorners ∧
      ((filter n o k previous).moveIn A (previous.boundsIn A).minimum).isSome = true ∧
      ((filter n o k previous).moveIn A (previous.boundsIn A).maximum).isSome = true
  | _ => True

variable {A} {s : Stage}

theorem carryIn_corners (h : s.TakesCorners A) :
    s.carryIn A A.box.minimum = some (s.boundsIn A).minimum ∧
      s.carryIn A A.box.maximum = some (s.boundsIn A).maximum := by
  induction s with
  | source n o kind => exact ⟨rfl, rfl⟩
  | loose n o kind given => exact ⟨rfl, rfl⟩
  | filter n o kind previous ih =>
      obtain ⟨hprevious, hminimum, hmaximum⟩ := h
      obtain ⟨minimum, hminimum⟩ := Option.isSome_iff_exists.mp hminimum
      obtain ⟨maximum, hmaximum⟩ := Option.isSome_iff_exists.mp hmaximum
      obtain ⟨hfirst, hlast⟩ := ih hprevious
      have hbounds : (filter n o kind previous).boundsIn A = ⟨minimum, maximum⟩ := by
        simp only [boundsIn, Box.moved, hminimum, hmaximum]
      simp only [carryIn, hfirst, hlast, hbounds, Option.bind_some]
      exact ⟨hminimum, hmaximum⟩

end

end Stage

section

variable {box : Box ℚ} {p q p' q' : Triple ℚ} {drawn : Nat → Triple ℚ} {t : Triple ℚ}
  {total i : Nat} {s : Stage}

/-- Whether a place is drawn from the unit cube, whose far sides do not belong to it. -/
def Triple.IsDraw (t : Triple ℚ) : Prop :=
  Triple.all 0 ≤ t ∧ t.x < 1 ∧ t.y < 1 ∧ t.z < 1

instance (t : Triple ℚ) : Decidable t.IsDraw :=
  inferInstanceAs (Decidable (Triple.all 0 ≤ t ∧ t.x < 1 ∧ t.y < 1 ∧ t.z < 1))

theorem Triple.IsDraw.le (h : t.IsDraw) : t ≤ Triple.all 1 :=
  ⟨h.2.1.le, h.2.2.1.le, h.2.2.2.le⟩

theorem Box.interpolate_mem (hbox : box.minimum ≤ box.maximum) (ht : Triple.all 0 ≤ t)
    (ht' : t ≤ Triple.all 1) :
    box.minimum ≤ box.interpolate t ∧ box.interpolate t ≤ box.maximum := by
  have haxis {lo hi t : ℚ} (h : lo ≤ hi) (ht : 0 ≤ t) (ht' : t ≤ 1) :
      lo ≤ lo + (hi - lo) * t ∧ lo + (hi - lo) * t ≤ hi := by
    have hwidth : 0 ≤ hi - lo := sub_nonneg.mpr h
    constructor
    · exact le_add_of_nonneg_right (mul_nonneg hwidth ht)
    · calc lo + (hi - lo) * t ≤ lo + (hi - lo) * 1 := by gcongr
        _ = hi := by rw [mul_one, add_sub_cancel]
  obtain ⟨hx, hy, hz⟩ := hbox
  obtain ⟨hx₁, hx₂⟩ := haxis hx ht.1 ht'.1
  obtain ⟨hy₁, hy₂⟩ := haxis hy ht.2.1 ht'.2.1
  obtain ⟨hz₁, hz₂⟩ := haxis hz ht.2.2 ht'.2.2
  exact ⟨⟨hx₁, hy₁, hz₁⟩, hx₂, hy₂, hz₂⟩

theorem Triple.le_refl (p : Triple ℚ) : p ≤ p :=
  ⟨le_rfl, le_rfl, le_rfl⟩

namespace Generator

theorem place_mem (mode : Mode) (hbox : box.minimum ≤ box.maximum) (ht : t.IsDraw) (hi : i < total) :
    box.minimum ≤ place (fun n => (n : ℚ)) box mode total t i ∧
      place (fun n => (n : ℚ)) box mode total t i ≤ box.maximum := by
  cases mode with
  | constant => exact ⟨Triple.le_refl _, hbox⟩
  | random => exact Box.interpolate_mem hbox ht.1 ht.le
  | ramp =>
      unfold place
      dsimp only
      split
      · exact ⟨Triple.le_refl _, hbox⟩
      · next htotal =>
        have hpos : (0 : ℚ) < (total - 1 : Nat) := by
          exact_mod_cast Nat.sub_pos_of_lt (Nat.not_le.mp htotal)
        have hstart : 0 ≤ (i : ℚ) / (total - 1 : Nat) := div_nonneg i.cast_nonneg hpos.le
        have hend : (i : ℚ) / (total - 1 : Nat) ≤ 1 := by
          rw [div_le_one hpos]
          exact_mod_cast Nat.le_sub_one_of_lt hi
        exact Box.interpolate_mem hbox ⟨hstart, hstart, hstart⟩ ⟨hend, hend, hend⟩

theorem place_first (total : Nat) (t : Triple ℚ) :
    place (fun n => (n : ℚ)) box .ramp total t 0 = box.minimum := by
  unfold place
  dsimp only
  split
  · rfl
  · simp [Box.interpolate, Triple.all]

theorem place_last (htotal : 2 ≤ total) (t : Triple ℚ) :
    place (fun n => (n : ℚ)) box .ramp total t (total - 1) = box.maximum := by
  have hpos : ((total - 1 : Nat) : ℚ) ≠ 0 := by
    exact_mod_cast Nat.sub_ne_zero_of_lt htotal
  unfold place
  dsimp only
  rw [if_neg (Nat.not_le.mpr htotal), div_self hpos]
  simp [Box.interpolate, Triple.all]

end Generator

namespace Stage

theorem carryIn_mono (hpq : p ≤ q) (hp : s.carryIn (.exact box drawn) p = some p')
    (hq : s.carryIn (.exact box drawn) q = some q') : p' ≤ q' := by
  induction s generalizing p' q' with
  | source n o kind =>
      cases hp
      cases hq
      exact hpq
  | loose n o kind given =>
      cases hp
      cases hq
      exact hpq
  | filter n o kind previous ih =>
      obtain ⟨p₁, hp₁, hp⟩ := Option.bind_eq_some_iff.mp hp
      obtain ⟨q₁, hq₁, hq⟩ := Option.bind_eq_some_iff.mp hq
      exact Local.point?_mono (ih hp₁ hq₁) hp hq

/-- Whether the box at the end of a chain is in order and holds all points that come there, and
whether a ramp begins and ends in its corners. -/
structure Encloses (A : Arithmetic ℚ) (g : Generator) (s : Stage) : Prop where
  ordered : (s.boundsIn A).minimum ≤ (s.boundsIn A).maximum
  inside : ∀ i < g.total, ∀ q, s.pointIn A g i = some q →
    (s.boundsIn A).minimum ≤ q ∧ q ≤ (s.boundsIn A).maximum
  first : g.mode = .ramp → s.pointIn A g 0 = some (s.boundsIn A).minimum
  last : g.mode = .ramp → 2 ≤ g.total →
    s.pointIn A g (g.total - 1) = some (s.boundsIn A).maximum

theorem TakesCorners.encloses (h : s.TakesCorners (.exact box drawn)) (g : Generator)
    (hbox : box.minimum ≤ box.maximum) (hdrawn : ∀ i, (drawn i).IsDraw) :
    s.Encloses (.exact box drawn) g := by
  obtain ⟨hminimum, hmaximum⟩ := carryIn_corners h
  refine ⟨carryIn_mono hbox hminimum hmaximum, ?_, ?_, ?_⟩
  · intro i hi q hq
    obtain ⟨hfrom, hto⟩ := Generator.place_mem g.mode hbox (hdrawn i) hi
    exact ⟨carryIn_mono hfrom hminimum hq, carryIn_mono hto hq hmaximum⟩
  · intro hramp
    unfold pointIn
    rw [hramp]
    exact (congrArg _ (Generator.place_first _ _)).trans hminimum
  · intro hramp htotal
    unfold pointIn
    rw [hramp]
    exact (congrArg _ (Generator.place_last htotal _)).trans hmaximum

end Stage

end

end PointStream

import PointStream.Decimal.Numeral
import Mathlib.Data.Int.Log
import Mathlib.Data.Rat.Floor
import Mathlib.Tactic.Positivity
import Mathlib.Tactic.Ring

/-!
# The nearest double

The double nearest to a fraction depends on the number that the fraction is, and not on its terms:
the exponent that rounding starts from is a logarithm of that number. Numbers from the end of the
doubles on are nearest to infinity, and those below half the least double are nearest to zero.
-/

namespace PointStream.Decimal

variable {num den k : Nat}

theorem zpow_eq_div (base : Nat) (hbase : 0 < base) (e : Int) :
    (base : ℚ) ^ e = (base : ℚ) ^ e.toNat / (base : ℚ) ^ (-e).toNat := by
  have hne : (base : ℚ) ≠ 0 := by positivity
  rw [eq_div_iff (pow_ne_zero _ hne), ← zpow_natCast, ← zpow_natCast, ← zpow_add₀ hne]
  congr 1
  omega

theorem zpow_le_div_iff (hden : 0 < den) (e : Int) :
    (2 : ℚ) ^ e ≤ (num : ℚ) / den ↔ den * 2 ^ e.toNat ≤ num * 2 ^ (-e).toNat := by
  have h := zpow_eq_div 2 (by decide) e
  push_cast at h
  rw [h, div_le_div_iff₀ (by positivity) (by positivity), mul_comm ((2 : ℚ) ^ e.toNat)]
  exact_mod_cast Iff.rfl

theorem pow_le_div_iff (hden : 0 < den) (k : Nat) :
    (2 : ℚ) ^ (k : Int) ≤ (num : ℚ) / den ↔ den * 2 ^ k ≤ num := by
  rw [zpow_le_div_iff hden, Int.toNat_natCast, Int.toNat_neg_natCast, Nat.pow_zero, Nat.mul_one]

theorem div_lt_pow_iff (hden : 0 < den) (k : Nat) :
    (num : ℚ) / den < (2 : ℚ) ^ (-(k : Int)) ↔ num * 2 ^ k < den := by
  rw [lt_iff_not_ge, zpow_le_div_iff hden, Int.neg_neg, Int.toNat_natCast, Int.toNat_neg_natCast,
    Nat.pow_zero, Nat.mul_one, Nat.not_le]

theorem binaryExponent_eq_log (hnum : 0 < num) (hden : 0 < den) :
    binaryExponent num den = Int.log 2 ((num : ℚ) / den) := by
  have hpos : (0 : ℚ) < (num : ℚ) / den := by positivity
  have hlog (e : Int) (hle : (2 : ℚ) ^ e ≤ (num : ℚ) / den) (hlt : (num : ℚ) / den < 2 ^ (e + 1)) :
      e = Int.log 2 ((num : ℚ) / den) := by
    have hle' := (Int.zpow_le_iff_le_log (b := 2) (by decide) hpos).mp (by exact_mod_cast hle)
    have hlt' := (Int.lt_zpow_iff_log_lt (b := 2) (by decide) hpos).mp (by exact_mod_cast hlt)
    omega
  have hbelow := Nat.log2_self_le (Nat.ne_of_gt hnum)
  have habove := Nat.lt_log2_self (n := num)
  have hbelow' := Nat.log2_self_le (Nat.ne_of_gt hden)
  have habove' := Nat.lt_log2_self (n := den)
  unfold binaryExponent
  dsimp only
  generalize hk : (num.log2 : Int) - (den.log2 : Int) = k
  have hupper : (num : ℚ) / den < 2 ^ (k + 1) := by
    rw [lt_iff_not_ge, zpow_le_div_iff hden, Nat.not_le]
    calc num * 2 ^ (-(k + 1)).toNat
        < 2 ^ (num.log2 + 1) * 2 ^ (-(k + 1)).toNat :=
          Nat.mul_lt_mul_of_pos_right habove (Nat.two_pow_pos _)
      _ = 2 ^ den.log2 * 2 ^ (k + 1).toNat := by
          rw [← Nat.pow_add, ← Nat.pow_add]
          congr 1
          omega
      _ ≤ den * 2 ^ (k + 1).toNat := Nat.mul_le_mul_right _ hbelow'
  have hlower : (2 : ℚ) ^ (k - 1) ≤ (num : ℚ) / den := by
    rw [zpow_le_div_iff hden]
    calc den * 2 ^ (k - 1).toNat
        ≤ 2 ^ (den.log2 + 1) * 2 ^ (k - 1).toNat := Nat.mul_le_mul_right _ (Nat.le_of_lt habove')
      _ = 2 ^ num.log2 * 2 ^ (-(k - 1)).toNat := by
          rw [← Nat.pow_add, ← Nat.pow_add]
          congr 1
          omega
      _ ≤ num * 2 ^ (-(k - 1)).toNat := Nat.mul_le_mul_right _ hbelow
  split
  · next h => exact hlog k ((zpow_le_div_iff hden k).mpr h) hupper
  · next h =>
    apply hlog (k - 1) hlower
    rw [Int.sub_add_cancel, lt_iff_not_ge, zpow_le_div_iff hden]
    exact h

theorem le_binaryExponent_iff (hnum : 0 < num) (hden : 0 < den) (k : Nat) :
    (k : Int) ≤ binaryExponent num den ↔ den * 2 ^ k ≤ num := by
  have hpos : (0 : ℚ) < (num : ℚ) / den := by positivity
  rw [binaryExponent_eq_log hnum hden, ← Int.zpow_le_iff_le_log (b := 2) (by decide) hpos,
    ← pow_le_div_iff hden]
  exact_mod_cast Iff.rfl

theorem binaryExponent_lt_iff (hnum : 0 < num) (hden : 0 < den) (k : Nat) :
    binaryExponent num den < -(k : Int) ↔ num * 2 ^ k < den := by
  have hpos : (0 : ℚ) < (num : ℚ) / den := by positivity
  rw [binaryExponent_eq_log hnum hden, ← Int.lt_zpow_iff_log_lt (b := 2) (by decide) hpos,
    ← div_lt_pow_iff hden]
  exact_mod_cast Iff.rfl

theorem roundHalfEven_mul_right (num den : Nat) (hk : 0 < k) :
    roundHalfEven (num * k) (den * k) = roundHalfEven num den := by
  unfold roundHalfEven
  rw [Nat.mul_div_mul_right _ _ hk, Nat.mul_mod_mul_right]
  have hleft : 2 * (num % den * k) < den * k ↔ 2 * (num % den) < den := by
    rw [← Nat.mul_assoc]
    exact Nat.mul_lt_mul_right hk
  have hright : den * k < 2 * (num % den * k) ↔ den < 2 * (num % den) := by
    rw [← Nat.mul_assoc]
    exact Nat.mul_lt_mul_right hk
  simp only [hleft, hright]

theorem roundHalfEven_mul_self (m : Nat) (hden : 0 < den) : roundHalfEven (m * den) den = m := by
  unfold roundHalfEven
  rw [Nat.mul_div_cancel _ hden, Nat.mul_mod_left, if_pos (by omega)]

theorem le_roundHalfEven (num den : Nat) : num / den ≤ roundHalfEven num den := by
  unfold roundHalfEven
  dsimp only
  split
  · exact Nat.le_refl _
  · split <;> omega

theorem nearestCode_zero : nearestCode 0 den = 0 :=
  if_pos rfl

theorem nearestCode_le (num den : Nat) : nearestCode num den ≤ infinityCode := by
  unfold nearestCode
  split
  · exact Nat.zero_le _
  · exact Nat.min_le_right _ _

theorem nearestCode_mul_right (hnum : 0 < num) (hden : 0 < den) (hk : 0 < k) :
    nearestCode (num * k) (den * k) = nearestCode num den := by
  have hvalue : ((num * k : Nat) : ℚ) / (den * k : Nat) = (num : ℚ) / den := by
    push_cast
    rw [mul_div_mul_right]
    positivity
  have hexponent : binaryExponent (num * k) (den * k) = binaryExponent num den := by
    rw [binaryExponent_eq_log (Nat.mul_pos hnum hk) (Nat.mul_pos hden hk), hvalue,
      binaryExponent_eq_log hnum hden]
  unfold nearestCode
  rw [if_neg (Nat.ne_of_gt (Nat.mul_pos hnum hk)), if_neg (Nat.ne_of_gt hnum), hexponent]
  dsimp only
  rw [Nat.mul_right_comm num k, Nat.mul_right_comm den k, roundHalfEven_mul_right _ _ hk]

/-- Fractions of one value have the same nearest double. -/
theorem nearestCode_congr {num' den' : Nat} (hden : 0 < den) (hden' : 0 < den')
    (h : (num : ℚ) / den = num' / den') : nearestCode num den = nearestCode num' den' := by
  have hcross : num * den' = num' * den := by
    rw [div_eq_div_iff (by positivity) (by positivity)] at h
    exact_mod_cast h
  rcases Nat.eq_zero_or_pos num with rfl | hnum
  · have hzero : num' = 0 := by
      rw [Nat.zero_mul] at hcross
      exact (Nat.mul_eq_zero.mp hcross.symm).resolve_right (Nat.ne_of_gt hden)
    rw [hzero, nearestCode_zero, nearestCode_zero]
  · have hnum' : 0 < num' := by
      apply Nat.pos_of_ne_zero
      rintro rfl
      rw [Nat.zero_mul] at hcross
      exact Nat.ne_of_gt (Nat.mul_pos hnum hden') hcross
    rw [← nearestCode_mul_right hnum hden hden', hcross, Nat.mul_comm den,
      nearestCode_mul_right hnum' hden' hden]

theorem nearestCode_of_large (hden : 0 < den) (h : den * 2 ^ 1024 ≤ num) :
    nearestCode num den = infinityCode := by
  have hnum : 0 < num := Nat.lt_of_lt_of_le (Nat.mul_pos hden (Nat.two_pow_pos _)) h
  have hpos : (0 : ℚ) < (num : ℚ) / den := by positivity
  have hexponent : (1024 : Nat) ≤ binaryExponent num den :=
    (le_binaryExponent_iff hnum hden 1024).mpr h
  have hself : (2 : ℚ) ^ binaryExponent num den ≤ (num : ℚ) / den := by
    rw [binaryExponent_eq_log hnum hden]
    exact_mod_cast Int.zpow_log_le_self (b := 2) (by decide) hpos
  unfold nearestCode
  rw [if_neg (Nat.ne_of_gt hnum)]
  dsimp only
  generalize binaryExponent num den = e at hexponent hself
  have hq : max (e - 52) (-1074) = e - 52 := by omega
  rw [hq]
  have hkept : 2 ^ 52 ≤ num * 2 ^ (-(e - 52)).toNat / (den * 2 ^ (e - 52).toNat) := by
    rw [Nat.le_div_iff_mul_le (Nat.mul_pos hden (Nat.two_pow_pos _))]
    rw [zpow_le_div_iff hden] at hself
    have hneg : (-(e - 52)).toNat = 0 := by omega
    have hneg' : (-e).toNat = 0 := by omega
    have hsplit : e.toNat = (e - 52).toNat + 52 := by omega
    rw [hneg', hsplit, Nat.pow_add] at hself
    rw [hneg]
    calc 2 ^ 52 * (den * 2 ^ (e - 52).toNat) = den * (2 ^ (e - 52).toNat * 2 ^ 52) := by ring
      _ ≤ num * 2 ^ 0 := hself
  have hround := le_roundHalfEven (num * 2 ^ (-(e - 52)).toNat) (den * 2 ^ (e - 52).toNat)
  apply Nat.min_eq_right
  have hbinade : 2046 ≤ (e - 52 + 1074).toNat := by omega
  have hfirst := Nat.mul_le_mul_right (2 ^ 52) hbinade
  unfold infinityCode
  omega

theorem nearestCode_of_small (hden : 0 < den) (h : 2 * (num * 2 ^ 1074) < den) :
    nearestCode num den = 0 := by
  rcases Nat.eq_zero_or_pos num with rfl | hnum
  · exact nearestCode_zero
  · have hexponent : binaryExponent num den < -(1074 : Nat) :=
      (binaryExponent_lt_iff hnum hden 1074).mpr (by omega)
    unfold nearestCode
    rw [if_neg (Nat.ne_of_gt hnum)]
    dsimp only
    have hq : max (binaryExponent num den - 52) (-1074) = -1074 := by omega
    have hround : roundHalfEven (num * 2 ^ 1074) den = 0 := by
      unfold roundHalfEven
      rw [Nat.mod_eq_of_lt (by omega), if_pos h, Nat.div_eq_of_lt (by omega)]
    rw [hq]
    simp only [Int.reduceNeg, Int.neg_neg, Int.reduceToNat, Int.reduceAdd, Nat.pow_zero,
      Nat.mul_one, hround]
    rfl

end PointStream.Decimal

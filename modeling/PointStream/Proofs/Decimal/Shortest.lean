import PointStream.Proofs.Decimal.Nearest

namespace PointStream.Decimal

theorem nearestCode_magnitude {m : Nat} {e : Int} (hm : 0 < m)
    (he : max ((m.log2 : Int) + e - 52) (-1074) = e) :
    nearestCode (m * 2 ^ e.toNat) (2 ^ (-e).toNat) =
      min ((e + 1074).toNat * 2 ^ 52 + m) infinityCode := by
  have hnum : (m * 2 ^ e.toNat).log2 = m.log2 + e.toNat := by
    rw [Nat.log2_eq_iff (Nat.ne_of_gt (Nat.mul_pos hm (Nat.two_pow_pos _)))]
    constructor
    · rw [Nat.pow_add]
      exact Nat.mul_le_mul_right _ (Nat.log2_self_le (Nat.ne_of_gt hm))
    · rw [Nat.add_right_comm, Nat.pow_add]
      exact Nat.mul_lt_mul_of_pos_right Nat.lt_log2_self (Nat.two_pow_pos _)
  have hexponent : binaryExponent (m * 2 ^ e.toNat) (2 ^ (-e).toNat) = (m.log2 : Int) + e := by
    unfold binaryExponent
    rw [hnum, Nat.log2_two_pow]
    dsimp only
    rw [if_pos]
    · omega
    · calc 2 ^ (-e).toNat * 2 ^ (((m.log2 + e.toNat : Nat) : Int) - ((-e).toNat : Nat)).toNat
          = 2 ^ m.log2 * 2 ^ e.toNat *
              2 ^ (-(((m.log2 + e.toNat : Nat) : Int) - ((-e).toNat : Nat))).toNat := by
            rw [← Nat.pow_add, ← Nat.pow_add, ← Nat.pow_add]
            congr 1
            omega
        _ ≤ _ := Nat.mul_le_mul_right _
          (Nat.mul_le_mul_right _ (Nat.log2_self_le (Nat.ne_of_gt hm)))
  unfold nearestCode
  rw [if_neg (Nat.ne_of_gt (Nat.mul_pos hm (Nat.two_pow_pos _))), hexponent]
  dsimp only
  rw [he, Nat.mul_assoc, Nat.mul_comm (2 ^ (-e).toNat),
    roundHalfEven_mul_self m (Nat.mul_pos (Nat.two_pow_pos _) (Nat.two_pow_pos _))]

theorem nearestCode_ofCode {code : Nat} (h : code < infinityCode) :
    nearestCode (Magnitude.ofCode code).num (Magnitude.ofCode code).den = code := by
  rcases Nat.eq_zero_or_pos code with rfl | hpos
  · exact nearestCode_zero
  · unfold Magnitude.num Magnitude.den Magnitude.ofCode
    split
    · next hsmall =>
      have hlog : code.log2 < 52 := (Nat.log2_lt (Nat.ne_of_gt hpos)).mpr hsmall
      rw [nearestCode_magnitude hpos (by dsimp only; omega)]
      dsimp only
      omega
    · next hlarge =>
      have hlog : (2 ^ 52 + code % 2 ^ 52).log2 = 52 := by
        rw [Nat.log2_eq_iff (by omega)]
        omega
      rw [nearestCode_magnitude (by dsimp only; omega) (by dsimp only; rw [hlog]; omega)]
      dsimp only
      omega

namespace Numeral

/-- The number that a numeral stands for. -/
def value (n : Numeral) : ℚ :=
  n.digits * (10 : ℚ) ^ n.exponent

theorem value_eq_div (n : Numeral) :
    n.value =
      ((n.digits * 10 ^ n.exponent.toNat : Nat) : ℚ) / (10 ^ (-n.exponent).toNat : Nat) := by
  have h := zpow_eq_div 10 (by decide) n.exponent
  push_cast at h ⊢
  rw [value, h, mul_div_assoc]

theorem two_pow_le_ten_pow {e k : Nat} (h : e ≤ 3 * k) : 2 ^ e ≤ 10 ^ k :=
  calc 2 ^ e ≤ 2 ^ (3 * k) := Nat.pow_le_pow_right (by decide) h
    _ = (2 ^ 3) ^ k := Nat.pow_mul ..
    _ ≤ 10 ^ k := Nat.pow_le_pow_left (by decide) k

theorem double_mul_two_pow_lt (d : Nat) {e k : Nat} (h : e + 1 ≤ 3 * k) :
    2 * (d * 2 ^ e) < 10 ^ (d.log2 + 1 + k) :=
  calc 2 * (d * 2 ^ e) = d * 2 ^ (e + 1) := by rw [Nat.pow_succ', Nat.mul_left_comm]
    _ < 10 ^ (d.log2 + 1) * 10 ^ k :=
      Nat.mul_lt_mul_of_lt_of_le
        (Nat.lt_of_lt_of_le Nat.lt_log2_self (Nat.pow_le_pow_left (by decide) _))
        (two_pow_le_ten_pow h) (Nat.pow_pos (by decide))
    _ = 10 ^ (d.log2 + 1 + k) := (Nat.pow_add ..).symm

/-- The exponents that are decided beforehand are decided rightly. -/
theorem code_eq_nearestCode (n : Numeral) :
    n.code = nearestCode (n.digits * 10 ^ n.exponent.toNat) (10 ^ (-n.exponent).toNat) := by
  unfold code
  split
  · next hzero => rw [hzero, Nat.zero_mul, nearestCode_zero]
  · next hdigits =>
    have hpos : 1 ≤ n.digits := Nat.pos_of_ne_zero hdigits
    split
    · next hlarge =>
      symm
      apply nearestCode_of_large (Nat.pow_pos (by decide))
      have hneg : (-n.exponent).toNat = 0 := by omega
      rw [hneg, Nat.pow_zero]
      apply Nat.mul_le_mul hpos
      exact two_pow_le_ten_pow (e := 1024) (by omega)
    · split
      · next hsmall =>
        symm
        apply nearestCode_of_small (Nat.pow_pos (by decide))
        have hneg : n.exponent.toNat = 0 := by omega
        rw [hneg, Nat.pow_zero, Nat.mul_one]
        calc 2 * (n.digits * 2 ^ 1074) < 10 ^ (n.digits.log2 + 1 + 400) :=
              double_mul_two_pow_lt n.digits (by decide)
          _ ≤ 10 ^ (-n.exponent).toNat := Nat.pow_le_pow_right (by decide) (by omega)
      · rfl

theorem code_le (n : Numeral) : n.code ≤ infinityCode := by
  rw [code_eq_nearestCode]
  exact nearestCode_le _ _

theorem code_congr {n m : Numeral} (h : n.value = m.value) : n.code = m.code := by
  rw [code_eq_nearestCode, code_eq_nearestCode]
  apply nearestCode_congr (Nat.pow_pos (by decide)) (Nat.pow_pos (by decide))
  rw [← value_eq_div, ← value_eq_div, h]

theorem value_stripZeros (n : Numeral) : n.stripZeros.value = n.value := by
  induction n using stripZeros.induct with
  | case1 n h ih =>
      have hdigits : n.digits / 10 * 10 = n.digits := by omega
      rw [stripZeros, dif_pos h, ih]
      unfold value
      rw [zpow_add_one₀ (by decide)]
      calc ((n.digits / 10 : Nat) : ℚ) * (10 ^ n.exponent * 10)
          = ((n.digits / 10 * 10 : Nat) : ℚ) * 10 ^ n.exponent := by
            push_cast
            ring
        _ = n.digits * 10 ^ n.exponent := by rw [hdigits]
  | case2 n h => rw [stripZeros, dif_neg h]

theorem code_exact {c : Nat} (h : c < infinityCode) : (exact (Magnitude.ofCode c)).code = c := by
  rw [code_eq_nearestCode]
  conv_rhs => rw [← nearestCode_ofCode h]
  unfold exact Magnitude.num Magnitude.den
  dsimp only
  generalize (Magnitude.ofCode c).mantissa = m
  generalize (Magnitude.ofCode c).exponent = e
  apply nearestCode_congr (Nat.pow_pos (by decide)) (Nat.two_pow_pos _)
  have hneg : (-((-e).toNat : Int)).toNat = 0 := by omega
  have hpos : (-(-((-e).toNat : Int))).toNat = (-e).toNat := by omega
  have hten : (10 : ℚ) ^ (-e).toNat = 2 ^ (-e).toNat * 5 ^ (-e).toNat := by
    rw [← mul_pow]
    norm_num
  rw [hneg, hpos]
  push_cast
  rw [hten, mul_one, mul_div_mul_right]
  positivity

theorem code_of_onGrid? {c : Nat} {v : Magnitude} {grid : Int} {n : Numeral}
    (h : onGrid? c v grid = some n) : n.code = c := by
  have hcode (first second : Numeral)
      (h : (if first.code = c then some first else if second.code = c then some second else none) =
        some n) : n.code = c := by
    split at h
    · next hfirst =>
      cases h
      exact hfirst
    · split at h
      · next hsecond =>
        cases h
        exact hsecond
      · cases h
  unfold onGrid? at h
  dsimp only at h
  split at h
  · exact hcode _ _ h
  · exact hcode _ _ h

theorem code_of_onGrids? {c : Nat} {v : Magnitude} {steps : Nat} {grid : Int} {n : Numeral}
    (h : onGrids? c v steps grid = some n) : n.code = c := by
  induction steps generalizing grid with
  | zero => cases h
  | succ steps ih =>
      rw [onGrids?] at h
      split at h
      · next hgrid =>
        cases h
        exact code_of_onGrid? hgrid
      · exact ih h

/-- The numeral that is written for a finite double reads back to it. -/
theorem code_shortest {c : Nat} (h : c < infinityCode) : (shortest c).code = c := by
  unfold shortest
  dsimp only
  split
  · next hzero =>
    rw [hzero]
    rfl
  · rw [code_congr (value_stripZeros _)]
    cases hfound : onGrids? c (Magnitude.ofCode c) 18
        (exponentAbove (Magnitude.ofCode c).num (Magnitude.ofCode c).den - 1) with
    | none => exact code_exact h
    | some n => exact code_of_onGrids? hfound

end Numeral

end PointStream.Decimal

import PointStream.Decimal.Binary

namespace PointStream.Double

open Decimal

theorem code_eq (x : Double) : x.code = x.bits.toNat % 2 ^ 63 := by
  unfold code magnitude
  rw [UInt64.toNat_mod]
  rfl

theorem isNegative_eq (x : Double) : x.isNegative = decide (2 ^ 63 ≤ x.bits.toNat) := by
  unfold isNegative
  exact decide_eq_decide.mpr UInt64.le_iff_toNat_le

theorem ofSignCode_code (x : Double) : ofSignCode x.isNegative x.code = x := by
  obtain ⟨bits⟩ := x
  have hlt := bits.toNat_lt
  have hbits : (if 2 ^ 63 ≤ bits.toNat then 2 ^ 63 + bits.toNat % 2 ^ 63 else bits.toNat % 2 ^ 63) =
      bits.toNat := by
    split <;> omega
  unfold ofSignCode
  rw [code_eq, isNegative_eq]
  simp only [decide_eq_true_eq, hbits, UInt64.ofNat_toNat]

theorem isNaN_eq (x : Double) : x.isNaN = decide (infinityCode < x.code) :=
  decide_eq_decide.mpr UInt64.lt_iff_toNat_lt

theorem isFinite_eq (x : Double) : x.isFinite = decide (x.code < infinityCode) :=
  decide_eq_decide.mpr UInt64.lt_iff_toNat_lt

theorem code_of_isInfinite {x : Double} (h : x.isInfinite = true) : x.code = infinityCode := by
  unfold isInfinite at h
  unfold code
  rw [eq_of_beq h]
  rfl

theorem code_lt_infinityCode {x : Double} (hnan : x.isNaN = false) (hinf : x.isInfinite = false) :
    x.code < infinityCode := by
  have hle : x.magnitude ≤ infiniteMagnitude := by
    rw [← UInt64.not_lt]
    exact of_decide_eq_false hnan
  have hne : x.magnitude ≠ infiniteMagnitude := ne_of_beq_false hinf
  exact UInt64.lt_iff_toNat_lt.mp (UInt64.lt_of_le_of_ne hle hne)

section

variable (negative : Bool) {code : Nat}

theorem toNat_ofSignCode (h : code ≤ infinityCode) :
    (ofSignCode negative code).bits.toNat = if negative then 2 ^ 63 + code else code := by
  have hlt : infinityCode < 2 ^ 63 := by decide
  unfold ofSignCode
  rw [UInt64.toNat_ofNat']
  split <;> omega

theorem code_ofSignCode (h : code ≤ infinityCode) : (ofSignCode negative code).code = code := by
  have hlt : infinityCode < 2 ^ 63 := by decide
  rw [code_eq, toNat_ofSignCode negative h]
  split <;> omega

theorem isNegative_ofSignCode (h : code ≤ infinityCode) :
    (ofSignCode negative code).isNegative = negative := by
  have hlt : infinityCode < 2 ^ 63 := by decide
  rw [isNegative_eq, toNat_ofSignCode negative h]
  cases negative with
  | false =>
      simp
      omega
  | true => simp

theorem isNaN_ofSignCode (h : code ≤ infinityCode) : (ofSignCode negative code).isNaN = false := by
  rw [isNaN_eq, code_ofSignCode negative h, decide_eq_false_iff_not]
  exact Nat.not_lt.mpr h

end

theorem toFraction?_eq_some_iff {x : Double} {negative : Bool} {v : Magnitude} :
    x.toFraction? = some (negative, v) ↔
      x.code < infinityCode ∧ negative = x.isNegative ∧ v = Magnitude.ofCode x.code := by
  unfold toFraction?
  rw [isFinite_eq]
  by_cases h : x.code < infinityCode
  · simp [h, eq_comm]
  · simp [h]

end PointStream.Double

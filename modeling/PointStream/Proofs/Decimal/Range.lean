import PointStream.Number.Basic

namespace PointStream

namespace Decimal

theorem roundHalfEven_le (num den : Nat) : roundHalfEven num den ≤ num / den + 1 := by
  unfold roundHalfEven
  simp only
  split
  · omega
  · split
    · omega
    · omega

theorem binaryExponent_one {n : Nat} (h : n ≠ 0) : binaryExponent n 1 = n.log2 := by
  have hself := Nat.log2_self_le h
  have hone : Nat.log2 1 = 0 := rfl
  simp [binaryExponent, hone, hself]

theorem kept_lt {n : Nat} {q : Int} (hq : q = n.log2 - 52) :
    n * 2 ^ (-q).toNat / 2 ^ q.toNat < 2 ^ 53 := by
  apply Nat.div_lt_of_lt_mul
  have hshift : n.log2 + 1 + (-q).toNat = q.toNat + 53 := by omega
  calc n * 2 ^ (-q).toNat
      < 2 ^ (n.log2 + 1) * 2 ^ (-q).toNat :=
        Nat.mul_lt_mul_of_pos_right Nat.lt_log2_self (Nat.two_pow_pos _)
    _ = 2 ^ q.toNat * 2 ^ 53 := by rw [← Nat.pow_add, hshift, Nat.pow_add]

theorem nearestCode_lt_infinityCode {n : Nat} (h : n.log2 < 1023) :
    nearestCode n 1 < infinityCode := by
  unfold nearestCode
  split
  · decide
  · next hn =>
    have hq : max (binaryExponent n 1 - 52) (-1074) = n.log2 - 52 := by
      rw [binaryExponent_one hn]
      omega
    simp only [hq]
    have hkept := kept_lt (n := n) rfl
    have hround := roundHalfEven_le (n * 2 ^ (-((n.log2 : Int) - 52)).toNat)
      (1 * 2 ^ ((n.log2 : Int) - 52).toNat)
    rw [Nat.one_mul] at hround
    have hexponent : ((n.log2 : Int) - 52 + 1074).toNat ≤ 2044 := by omega
    apply Nat.lt_of_le_of_lt (Nat.min_le_left _ _)
    simp only [infinityCode, Nat.one_mul]
    omega

end Decimal

theorem Double.ofInt?_natCast {n : Nat} (h : n.log2 < 1023) :
    Double.ofInt? n = .ok (Double.ofInt n) := by
  have hne := Nat.ne_of_lt (Decimal.nearestCode_lt_infinityCode h)
  simp [Double.ofInt?, hne]

end PointStream

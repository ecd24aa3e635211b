import PointStream.Cell
import PointStream.Proofs.Decimal.Code
import PointStream.Proofs.Decimal.Shortest

namespace PointStream

open Decimal

/-- Whether two numbers are one, whatever their kinds. -/
def Number.Same (a b : Number) : Prop :=
  a.le b = true ∧ b.le a = true

namespace Scalar

def number : Scalar → Number
  | real x => .real x
  | whole n => .whole n

/-- Whether a scalar is a value: a double bit by bit, and otherwise by the number. -/
def Is : Scalar → Value → Prop
  | .real x, .real y => x = y
  | x, v => ∃ n, v.number? = some n ∧ n.Same x.number

end Scalar

namespace Storage

/-- The scalars of a storage type. -/
def Has (s : Storage) : Scalar → Prop
  | .real _ => s = .float64
  | .whole n => s ≠ .float64 ∧ s.lowest ≤ n ∧ n < s.lowest + s.modulus

/-- Whether a value is one of a storage type. -/
def Represents (s : Storage) (v : Value) : Prop :=
  ∃ x, s.Has x ∧ x.Is v

/-- What a cell holds before anything is stored in it. -/
def zero : Storage → Scalar
  | float64 => .real .zero
  | _ => .whole 0

end Storage

namespace Number

theorem same_whole_iff {m n : Int} : (whole m).Same (whole n) ↔ m = n := by
  simp only [Same, le, place, Place.upTo, decide_eq_true_eq]
  omega

theorem same_truth_iff {t : Bool} {a : Number} :
    (truth t).Same a ↔ (whole (if t then 1 else 0)).Same a :=
  Iff.rfl

theorem same_comm {a b : Number} : a.Same b ↔ b.Same a :=
  And.comm

theorem placeOf_cases (x : Double) :
    (∃ negative v, x.toFraction? = some (negative, v) ∧
        placeOf x = .finite (if negative then -(v.num : Int) else v.num) v.den) ∨
      x.toFraction? = none ∧ (placeOf x = .unordered ∨ placeOf x = .least ∨ placeOf x = .greatest) := by
  unfold placeOf
  cases x.toFraction? with
  | none =>
      refine .inr ⟨rfl, ?_⟩
      cases x.isNaN <;> cases x.isNegative <;> simp
  | some fraction => exact .inl ⟨fraction.1, fraction.2, rfl, rfl⟩

theorem same_real_iff {n : Int} {x : Double} :
    (whole n).Same (real x) ↔
      ∃ negative v, x.toFraction? = some (negative, v) ∧
        (if negative then -(v.num : Int) else v.num) = n * v.den := by
  rcases placeOf_cases x with ⟨negative, v, hfraction, hplace⟩ | ⟨hnone, hplace⟩
  · rw [hfraction]
    simp only [Same, le, place, hplace, Place.upTo, decide_eq_true_eq, Int.natCast_one, Int.mul_one,
      Option.some.injEq, Prod.mk.injEq]
    constructor
    · rintro ⟨hle, hge⟩
      exact ⟨negative, v, ⟨rfl, rfl⟩, Int.le_antisymm hge hle⟩
    · rintro ⟨_, _, ⟨rfl, rfl⟩, h⟩
      exact ⟨Int.le_of_eq h.symm, Int.le_of_eq h⟩
  · rw [hnone]
    rcases hplace with h | h | h <;> simp [Same, le, place, h, Place.upTo, Place.before]

theorem nonneg_of_toInt (n : Number) {k : Int} (hlt : ¬n.lt (whole 0) = true)
    (hk : n.toInt = .ok k) : 0 ≤ k := by
  cases n with
  | whole m =>
      cases hk
      simpa using hlt
  | truth t =>
      cases hk
      cases t <;> decide
  | real x =>
      rcases placeOf_cases x with ⟨negative, v, hfraction, hplace⟩ | ⟨hnone, _⟩
      · simp only [lt, place, hplace, Place.before, decide_eq_true_eq] at hlt
        simp only [toInt, Double.toInt, Double.truncate?, hfraction, Option.map_some,
          Except.ok.injEq] at hk
        cases negative with
        | false => exact hk ▸ Int.natCast_nonneg _
        | true =>
            have hzero : v.num = 0 := by
              simp only [if_true] at hlt
              omega
            rw [hzero, Nat.zero_div] at hk
            exact Int.le_of_eq hk
      · simp [toInt, Double.toInt, Double.truncate?, hnone] at hk

end Number

namespace Double

variable {n : Int} {x : Double}

theorem den_pos (v : Magnitude) : 0 < v.den :=
  Nat.two_pow_pos _

theorem toInt_of_same (h : (Number.whole n).Same (.real x)) : x.toInt = .ok n := by
  obtain ⟨negative, v, hfraction, hvalue⟩ := Number.same_real_iff.mp h
  have hden := den_pos v
  unfold toInt truncate?
  rw [hfraction]
  simp only [Option.map_some, Except.ok.injEq]
  cases negative with
  | false =>
      rw [if_neg Bool.false_ne_true] at hvalue ⊢
      rw [Int.natCast_ediv, hvalue, Int.mul_ediv_cancel _ (by omega)]
  | true =>
      rw [if_pos rfl] at hvalue ⊢
      have hnum : (v.num : Int) = -n * v.den := by
        rw [Int.neg_mul]
        omega
      rw [Int.natCast_ediv, hnum, Int.mul_ediv_cancel _ (by omega), Int.neg_neg]

theorem exists_ofInt?_of_same (h : (Number.whole n).Same (.real x)) :
    ∃ y, ofInt? n = .ok y ∧ (Number.whole n).Same (.real y) := by
  obtain ⟨negative, v, hfraction, hvalue⟩ := Number.same_real_iff.mp h
  obtain ⟨hfinite, rfl, rfl⟩ := toFraction?_eq_some_iff.mp hfraction
  have hden := den_pos (Magnitude.ofCode x.code)
  have hnum : (Magnitude.ofCode x.code).num = n.natAbs * (Magnitude.ofCode x.code).den := by
    have habs := congrArg Int.natAbs hvalue
    rw [Int.natAbs_mul, Int.natAbs_natCast] at habs
    rw [← habs]
    split <;> simp
  have hcode : nearestCode n.natAbs 1 = x.code := by
    rw [← nearestCode_ofCode hfinite]
    apply nearestCode_congr Nat.one_pos hden
    rw [hnum]
    push_cast
    field_simp
  refine ⟨ofInt n, ?_, Number.same_real_iff.mpr ⟨decide (n < 0), Magnitude.ofCode x.code, ?_, ?_⟩⟩
  · unfold ofInt?
    rw [hcode, if_neg (Nat.ne_of_lt hfinite)]
  · have hle := Nat.le_of_lt hfinite
    unfold ofInt
    rw [hcode, toFraction?_eq_some_iff, code_ofSignCode _ hle, isNegative_ofSignCode _ hle]
    exact ⟨hfinite, rfl, rfl⟩
  · rw [hnum, Int.natCast_mul]
    rcases Int.lt_or_le n 0 with hneg | hpos
    · rw [decide_eq_true hneg, if_pos rfl, Int.ofNat_natAbs_of_nonpos (Int.le_of_lt hneg),
        Int.neg_mul, Int.neg_neg]
    · rw [decide_eq_false (Int.not_lt.mpr hpos), if_neg Bool.false_ne_true,
        Int.natAbs_of_nonneg hpos]

end Double

namespace Storage

variable {s : Storage} {v : Value} {n : Int}

theorem modulus_pos (s : Storage) : 0 < s.modulus :=
  Nat.two_pow_pos _

theorem two_mul_half_modulus (s : Storage) : 2 * (s.modulus / 2) = s.modulus := by
  cases s <;> rfl

theorem modulus_dvd (s : Storage) : (s.modulus : Int) ∣ 2 ^ 64 := by
  cases s <;> decide

theorem wholeOfWord_eq (s : Storage) (w : UInt64) :
    s.wholeOfWord w =
      if s.signed = true ∧ s.modulus ≤ 2 * (w.toNat % s.modulus) then
        ((w.toNat % s.modulus : Nat) : Int) - s.modulus
      else (w.toNat % s.modulus : Nat) := by
  simp only [wholeOfWord, Bool.and_eq_true, decide_eq_true_eq]

theorem wholeOfWord_mem (s : Storage) (w : UInt64) :
    s.lowest ≤ s.wholeOfWord w ∧ s.wholeOfWord w < s.lowest + s.modulus := by
  have hlow := Nat.mod_lt w.toNat s.modulus_pos
  have hhalf := s.two_mul_half_modulus
  rw [wholeOfWord_eq, lowest]
  cases s.signed with
  | false =>
      simp only [Bool.false_eq_true, false_and, if_false]
      omega
  | true =>
      simp only [true_and, if_true]
      split <;> omega

theorem has_read (s : Storage) (w : UInt64) : s.Has (s.read w) := by
  cases s with
  | float64 => rfl
  | _ => exact ⟨nofun, wholeOfWord_mem _ w⟩

theorem wholeOfWord_wordOfInt (hlowest : s.lowest ≤ n) (hlt : n < s.lowest + s.modulus) :
    s.wholeOfWord (wordOfInt n) = n := by
  have hlow : (((wordOfInt n).toNat % s.modulus : Nat) : Int) = n % s.modulus := by
    have hword : ((wordOfInt n).toNat : Int) = n % 2 ^ 64 := by
      rw [wordOfInt, UInt64.toNat_ofNat']
      omega
    rw [Int.natCast_emod, hword, Int.emod_emod_of_dvd n s.modulus_dvd]
  have hhalf := s.two_mul_half_modulus
  rw [lowest] at hlowest hlt
  rw [wholeOfWord_eq]
  rcases Int.lt_or_le n 0 with hneg | hpos
  · have hemod : n % s.modulus = n + s.modulus := by
      rw [← Int.add_emod_right, Int.emod_eq_of_lt (by split at hlowest <;> omega) (by omega)]
    cases hsigned : s.signed with
    | false =>
        rw [hsigned, if_neg Bool.false_ne_true] at hlowest
        omega
    | true =>
        rw [hsigned, if_pos rfl] at hlowest
        rw [if_pos ⟨rfl, by omega⟩]
        omega
  · have hemod : n % s.modulus = n := Int.emod_eq_of_lt hpos (by split at hlt <;> omega)
    rw [if_neg, hlow, hemod]
    rintro ⟨hsigned, hle⟩
    rw [hsigned, if_pos rfl] at hlt
    omega

theorem exists_write_of_int (hs : s ≠ .float64) (hv : v.toInt = .ok n) (hlowest : s.lowest ≤ n)
    (hlt : n < s.lowest + s.modulus) : ∃ w, s.write v = .ok w ∧ s.read w = .whole n := by
  refine ⟨wordOfInt n, ?_, ?_⟩
  · have hwhole : s.wholeWord v = .ok (wordOfInt n) := by
      simp only [wholeWord, Value.int, hv, Except.mapError, hlowest, hlt, and_self, if_true]
    cases s with
    | float64 => exact absurd rfl hs
    | _ => exact hwhole
  · have hread := wholeOfWord_wordOfInt hlowest hlt
    cases s with
    | float64 => exact absurd rfl hs
    | _ => exact congrArg Scalar.whole hread

theorem toInt_of_is (h : (Scalar.whole n).Is v) : v.toInt = .ok n := by
  obtain ⟨m, hm, hsame⟩ := h
  cases v with
  | whole k =>
      cases hm
      exact congrArg Except.ok (Number.same_whole_iff.mp hsame)
  | truth t =>
      cases hm
      exact congrArg Except.ok (Number.same_whole_iff.mp (Number.same_truth_iff.mp hsame))
  | real y =>
      cases hm
      exact Double.toInt_of_same (Number.same_comm.mp hsame)
  | _ => cases hm

/-- A value of a storage type can be stored, and is what is read back. -/
theorem exists_write (h : s.Represents v) : ∃ w, s.write v = .ok w ∧ (s.read w).Is v := by
  obtain ⟨x, hx, hv⟩ := h
  cases x with
  | whole n =>
      obtain ⟨w, hw, hread⟩ := exists_write_of_int hx.1 (toInt_of_is hv) hx.2.1 hx.2.2
      exact ⟨w, hw, hread ▸ hv⟩
  | real x =>
      obtain rfl : s = .float64 := hx
      cases v with
      | real y => exact ⟨y.bits, rfl, rfl⟩
      | whole n =>
          obtain ⟨_, ⟨⟩, hsame⟩ := hv
          obtain ⟨y, hy, hsame⟩ := Double.exists_ofInt?_of_same hsame
          refine ⟨y.bits, ?_, _, rfl, hsame⟩
          simp only [write, floatWord, Value.double, Value.toDouble, hy, Except.mapError]
      | truth t =>
          refine ⟨_, rfl, _, rfl, ?_⟩
          cases t with
          | false => exact ⟨by decide +kernel, by decide +kernel⟩
          | true => exact ⟨by decide +kernel, by decide +kernel⟩
      | _ =>
          obtain ⟨_, hnumber, _⟩ := hv
          cases hnumber

end Storage

end PointStream

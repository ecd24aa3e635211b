import PointStream.Number.Reading
import PointStream.Proofs.Decimal.Shortest
import PointStream.Proofs.Lists

namespace PointStream.Text

theorem isPlainDigit_digitChar {n : Nat} (h : n < 10) : isPlainDigit (digitChar n) = true := by
  decide +revert

theorem digitValue_digitChar {n : Nat} (h : n < 10) : digitValue (digitChar n) = n := by
  decide +revert

theorem digitChar_eq_zero {n : Nat} (hn : n < 10) (h : digitChar n = '0') : n = 0 := by
  have hvalue := digitValue_digitChar hn
  rw [h] at hvalue
  exact hvalue.symm

theorem natOfDigits_append_singleton (cs : List Char) (c : Char) :
    natOfDigits (cs ++ [c]) = 10 * natOfDigits cs + digitValue c := by
  simp [natOfDigits]

theorem natOfDigits_append (cs ds : List Char) :
    natOfDigits (cs ++ ds) = natOfDigits cs * 10 ^ ds.length + natOfDigits ds := by
  induction ds using List.reverseRecOn with
  | nil => simp [natOfDigits]
  | append_singleton ds d ih =>
      rw [← List.append_assoc, natOfDigits_append_singleton, natOfDigits_append_singleton, ih,
        List.length_append, List.length_singleton, Nat.pow_succ]
      ring

theorem natOfDigits_zeros (k : Nat) : natOfDigits (List.replicate k '0') = 0 := by
  induction k with
  | zero => rfl
  | succ k ih =>
      rw [List.replicate_succ', natOfDigits_append_singleton, ih]
      rfl

theorem natOfDigits_digitsOfNat (n : Nat) : natOfDigits (digitsOfNat n) = n := by
  induction n using Nat.strongRecOn with
  | ind n ih =>
      rw [digitsOfNat_eq]
      split
      · next hsmall =>
        change 10 * 0 + digitValue (digitChar n) = n
        rw [digitValue_digitChar hsmall]
        omega
      · next hlarge =>
        rw [natOfDigits_append_singleton, ih (n / 10) (by omega),
          digitValue_digitChar (Nat.mod_lt n (by decide))]
        omega

theorem digitsOfNat_of_lt {n : Nat} (h : n < 10) : digitsOfNat n = [digitChar n] := by
  rw [digitsOfNat_eq, if_pos h]

theorem isPlainDigit_of_mem_digitsOfNat {n : Nat} {c : Char} (h : c ∈ digitsOfNat n) :
    isPlainDigit c = true := by
  induction n using Nat.strongRecOn with
  | ind n ih =>
      rw [digitsOfNat_eq] at h
      split at h
      · next hsmall =>
        rw [List.mem_singleton.mp h]
        exact isPlainDigit_digitChar hsmall
      · next hlarge =>
        rcases List.mem_append.mp h with hfront | hlast
        · exact ih (n / 10) (by omega) hfront
        · rw [List.mem_singleton.mp hlast]
          exact isPlainDigit_digitChar (Nat.mod_lt n (by decide))

theorem digitsOfNat_ne_nil (n : Nat) : digitsOfNat n ≠ [] := by
  rw [digitsOfNat_eq]
  split
  · exact List.cons_ne_nil _ _
  · exact List.append_ne_nil_of_right_ne_nil _ (List.cons_ne_nil _ _)

theorem eq_zero_of_head?_digitsOfNat {n : Nat} (h : (digitsOfNat n).head? = some '0') : n = 0 := by
  induction n using Nat.strongRecOn with
  | ind n ih =>
      rw [digitsOfNat_eq] at h
      split at h
      · next hsmall => exact digitChar_eq_zero hsmall (Option.some.inj h)
      · next hlarge =>
        rw [List.head?_append_of_ne_nil _ (digitsOfNat_ne_nil _)] at h
        have hquotient := ih (n / 10) (by omega) h
        omega

end PointStream.Text

namespace PointStream.Decimal

open Text Number

/-- The parts of a numeral in writing: the digits before the point, those behind it, and what
follows them. -/
structure Spelling where
  whole : List Char
  fraction : List Char
  tail : List Char

namespace Spelling

def chars (w : Spelling) : List Char :=
  w.whole ++ ((if w.fraction.isEmpty then [] else '.' :: w.fraction) ++ w.tail)

/-- Whether the parts write a numeral, and write it as a real number: something stands behind the
digits before the point. -/
structure Writes (w : Spelling) (n : Numeral) : Prop where
  whole_ne_nil : w.whole ≠ []
  whole_digits : ∀ c ∈ w.whole, isPlainDigit c = true
  whole_head : w.whole.head? = some '0' → w.whole = ['0']
  fraction_digits : ∀ c ∈ w.fraction, isPlainDigit c = true
  isReal : w.fraction ≠ [] ∨ w.tail ≠ []
  tail_chars : ∀ c ∈ w.tail, isPlainDigit c = true ∨ c ∈ ['e', '+', '-']
  value : ∃ e, readExponent? w.tail = some e ∧
    (⟨natOfDigits (w.whole ++ w.fraction), e - w.fraction.length⟩ : Numeral).value = n.value

theorem Writes.mem_chars {w : Spelling} {n : Numeral} (hw : w.Writes n) {c : Char}
    (h : c ∈ w.chars) : isPlainDigit c = true ∨ c ∈ ['.', 'e', '+', '-'] := by
  rcases List.mem_append.mp h with hwhole | hrest
  · exact .inl (hw.whole_digits c hwhole)
  · rcases List.mem_append.mp hrest with hfraction | htail
    · split at hfraction
      · cases hfraction
      · rcases List.mem_cons.mp hfraction with rfl | hdigit
        · exact .inr (by decide)
        · exact .inl (hw.fraction_digits c hdigit)
    · exact (hw.tail_chars c htail).imp id (List.mem_cons_of_mem _)

end Spelling

theorem isPlainDigit_of_mem_padded {length : Nat} {ds : List Char} {c : Char}
    (hds : ∀ c ∈ ds, isPlainDigit c = true) (h : c ∈ padded length ds) : isPlainDigit c = true := by
  rcases List.mem_append.mp h with hzero | hdigit
  · rw [List.eq_of_mem_replicate hzero]
    rfl
  · exact hds c hdigit

theorem natOfDigits_padded (length : Nat) (ds : List Char) :
    natOfDigits (padded length ds) = natOfDigits ds := by
  rw [padded, natOfDigits_append, natOfDigits_zeros, Nat.zero_mul, Nat.zero_add]

theorem readExponent?_exponentChars (e : Int) :
    readExponent? ('e' :: exponentChars e) = some e := by
  have hne : (padded 2 (digitsOfNat e.natAbs)).isEmpty = false := by
    rw [List.isEmpty_eq_false_iff]
    exact List.append_ne_nil_of_right_ne_nil _ (digitsOfNat_ne_nil _)
  have hall : (padded 2 (digitsOfNat e.natAbs)).all isPlainDigit = true :=
    List.all_eq_true.mpr fun _ hc =>
      isPlainDigit_of_mem_padded (fun _ h => isPlainDigit_of_mem_digitsOfNat h) hc
  have hnat : natOfDigits (padded 2 (digitsOfNat e.natAbs)) = e.natAbs := by
    rw [natOfDigits_padded, natOfDigits_digitsOfNat]
  by_cases hneg : e < 0
  · simp only [exponentChars, if_pos hneg, readExponent?, splitSign, hne, hall, hnat, decide_true,
      Bool.true_or, if_true, Bool.not_true, Bool.or_self, Bool.false_eq_true, if_false]
    congr 1
    omega
  · simp only [exponentChars, if_neg hneg, readExponent?, splitSign, hne, hall, hnat, decide_true,
      Bool.true_or, if_true, Bool.not_true, Bool.or_self, Bool.false_eq_true, if_false]
    congr 1
    omega

theorem mem_exponentChars {e : Int} {c : Char} (h : c ∈ 'e' :: exponentChars e) :
    isPlainDigit c = true ∨ c ∈ ['e', '+', '-'] := by
  rcases List.mem_cons.mp h with rfl | h
  · exact .inr (by decide)
  · rcases List.mem_cons.mp h with rfl | hdigit
    · right
      split <;> decide
    · exact .inl (isPlainDigit_of_mem_padded (fun _ h => isPlainDigit_of_mem_digitsOfNat h) hdigit)

/-- Digits of a number without zeros before them. -/
structure IsDigitsOf (ds : List Char) (d : Nat) : Prop where
  ne_nil : ds ≠ []
  plain : ∀ c ∈ ds, isPlainDigit c = true
  value : natOfDigits ds = d
  zero_head : ds.head? = some '0' → ds = ['0']

theorem isDigitsOf_digitsOfNat (d : Nat) : IsDigitsOf (digitsOfNat d) d where
  ne_nil := digitsOfNat_ne_nil d
  plain := fun _ => isPlainDigit_of_mem_digitsOfNat
  value := natOfDigits_digitsOfNat d
  zero_head h := by
    rw [eq_zero_of_head?_digitsOfNat h]
    exact digitsOfNat_of_lt (by decide)

namespace IsDigitsOf

variable {ds : List Char} {d : Nat}

theorem eq_zero (h : IsDigitsOf ds d) (hhead : ds.head? = some '0') : d = 0 := by
  rw [← h.value, h.zero_head hhead]
  rfl

theorem plain_append_zeros (h : IsDigitsOf ds d) (k : Nat) {c : Char}
    (hc : c ∈ ds ∨ c ∈ List.replicate k '0') : isPlainDigit c = true := by
  rcases hc with hdigit | hzero
  · exact h.plain c hdigit
  · rw [List.eq_of_mem_replicate hzero]
    rfl

theorem writes_zerosBehind (h : IsDigitsOf ds d) {k : Nat} (hk : d ≠ 0 ∨ k = 0) :
    Spelling.Writes ⟨ds ++ List.replicate k '0', ['0'], []⟩ ⟨d, k⟩ where
  whole_ne_nil := List.append_ne_nil_of_left_ne_nil h.ne_nil _
  whole_digits c hc := h.plain_append_zeros k (List.mem_append.mp hc)
  whole_head hstart := by
    rw [List.head?_append_of_ne_nil _ h.ne_nil] at hstart
    rw [hk.resolve_left fun hd => hd (h.eq_zero hstart), h.zero_head hstart]
    rfl
  fraction_digits c hc := by
    rw [List.mem_singleton.mp hc]
    rfl
  isReal := .inl (List.cons_ne_nil _ _)
  tail_chars c hc := by cases hc
  value := by
    refine ⟨0, rfl, ?_⟩
    unfold Numeral.value
    dsimp only
    rw [natOfDigits_append_singleton, natOfDigits_append, natOfDigits_zeros, h.value,
      List.length_replicate, List.length_singleton]
    change ((10 * (d * 10 ^ k + 0) + 0 : Nat) : ℚ) * 10 ^ (-1 : Int) = d * 10 ^ (k : Int)
    rw [zpow_neg_one, zpow_natCast]
    push_cast
    ring

theorem writes_split (h : IsDigitsOf ds d) {p : Nat} (hpos : 0 < p) (hp : p < ds.length) :
    Spelling.Writes ⟨ds.take p, ds.drop p, []⟩ ⟨d, p - ds.length⟩ where
  whole_ne_nil := by
    rw [Ne, List.take_eq_nil_iff]
    exact not_or.mpr ⟨Nat.ne_of_gt hpos, h.ne_nil⟩
  whole_digits c hc := h.plain c (List.mem_of_mem_take hc)
  whole_head hstart := by
    rw [List.head?_take, if_neg (Nat.ne_of_gt hpos)] at hstart
    rw [h.zero_head hstart, List.length_singleton] at hp
    omega
  fraction_digits c hc := h.plain c (List.mem_of_mem_drop hc)
  isReal := .inl fun hnil => absurd (List.drop_eq_nil_iff.mp hnil) (Nat.not_le_of_lt hp)
  tail_chars c hc := by cases hc
  value := by
    refine ⟨0, rfl, ?_⟩
    congr 1
    dsimp only
    rw [List.take_append_drop, h.value, List.length_drop]
    congr 1
    omega

theorem writes_zerosBefore (h : IsDigitsOf ds d) (k : Nat) :
    Spelling.Writes ⟨['0'], List.replicate k '0' ++ ds, []⟩ ⟨d, -k - ds.length⟩ where
  whole_ne_nil := List.cons_ne_nil _ _
  whole_digits c hc := by
    rw [List.mem_singleton.mp hc]
    rfl
  whole_head := fun _ => rfl
  fraction_digits c hc := h.plain_append_zeros k (List.mem_append.mp hc).symm
  isReal := .inl (List.append_ne_nil_of_right_ne_nil _ h.ne_nil)
  tail_chars c hc := by cases hc
  value := by
    refine ⟨0, rfl, ?_⟩
    congr 1
    dsimp only
    rw [← List.append_assoc, natOfDigits_append, List.singleton_append, ← List.replicate_succ,
      natOfDigits_zeros, Nat.zero_mul, Nat.zero_add, h.value, List.length_append,
      List.length_replicate]
    congr 1
    omega

theorem writes_scientific (h : IsDigitsOf ds d) (e : Int) :
    Spelling.Writes ⟨ds.take 1, ds.drop 1, 'e' :: exponentChars e⟩ ⟨d, e + 1 - ds.length⟩ where
  whole_ne_nil := by
    rw [Ne, List.take_eq_nil_iff]
    exact not_or.mpr ⟨Nat.one_ne_zero, h.ne_nil⟩
  whole_digits c hc := h.plain c (List.mem_of_mem_take hc)
  whole_head hstart := by
    rw [List.head?_take, if_neg Nat.one_ne_zero] at hstart
    rw [h.zero_head hstart]
    rfl
  fraction_digits c hc := h.plain c (List.mem_of_mem_drop hc)
  isReal := .inr (List.cons_ne_nil _ _)
  tail_chars c hc := mem_exponentChars hc
  value := by
    refine ⟨e, readExponent?_exponentChars e, ?_⟩
    have hlength := List.length_pos_of_ne_nil h.ne_nil
    congr 1
    dsimp only
    rw [List.take_append_drop, h.value, List.length_drop]
    congr 1
    omega

end IsDigitsOf

namespace Numeral

/-- Every numeral whose digits are not zero, and the plain zero, is written in parts that write
it. -/
theorem exists_spelling {n : Numeral} (h : n.digits ≠ 0 ∨ n.exponent = 0) :
    ∃ w : Spelling, w.chars = n.chars ∧ w.Writes n := by
  obtain ⟨d, x⟩ := n
  have hds := isDigitsOf_digitsOfNat d
  have hlength := List.length_pos_of_ne_nil hds.ne_nil
  unfold Numeral.chars layout
  dsimp only at h ⊢
  generalize digitsOfNat d = ds at *
  split
  · next hpoint =>
    split
    · next hwhole =>
      obtain ⟨k, rfl⟩ : ∃ k : Nat, x = k := ⟨x.toNat, by omega⟩
      have hk : ((ds.length : Int) + k).toNat - ds.length = k := by omega
      rw [hk]
      refine ⟨_, ?_, hds.writes_zerosBehind (h.imp id (by omega))⟩
      simp [Spelling.chars]
    · next hsplit =>
      obtain ⟨p, hp⟩ : ∃ p : Nat, (ds.length : Int) + x = p :=
        ⟨_, (Int.toNat_of_nonneg (by omega)).symm⟩
      have hx : x = p - ds.length := by omega
      rw [hp, hx, Int.toNat_natCast]
      refine ⟨_, ?_, hds.writes_split (by omega) (by omega)⟩
      simp [Spelling.chars, show ¬ ds.length ≤ p by omega]
  · split
    · next hpoint =>
      obtain ⟨k, hk⟩ : ∃ k : Nat, -((ds.length : Int) + x) = k :=
        ⟨_, (Int.toNat_of_nonneg (by omega)).symm⟩
      have hx : x = -k - ds.length := by omega
      rw [hk, hx, Int.toNat_natCast]
      refine ⟨_, ?_, hds.writes_zerosBefore k⟩
      simp [Spelling.chars, hds.ne_nil]
    · obtain ⟨e, he⟩ : ∃ e : Int, (ds.length : Int) + x - 1 = e := ⟨_, rfl⟩
      have hx : x = e + 1 - ds.length := by omega
      rw [he, hx]
      refine ⟨_, ?_, hds.writes_scientific e⟩
      simp [Spelling.chars]

theorem exists_spelling_shortest {c : Nat} (h : c < infinityCode) :
    ∃ w : Spelling, w.chars = (shortest c).chars ∧ w.Writes (shortest c) := by
  apply exists_spelling
  by_cases hc : c = 0
  · right
    rw [hc]
    rfl
  · left
    intro hdigits
    have hcode := code_shortest h
    unfold code at hcode
    rw [if_pos hdigits] at hcode
    exact hc hcode.symm

end Numeral

end PointStream.Decimal

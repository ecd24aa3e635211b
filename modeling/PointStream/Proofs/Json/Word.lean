import PointStream.Json.Printer
import PointStream.Json.Reader
import PointStream.Proofs.Decimal.Code
import PointStream.Proofs.Decimal.Spelling

namespace PointStream

open Text Number Decimal

namespace Json

/-- A word that stands for a value. -/
structure IsWord (cs : List Char) (v : Value) : Prop where
  ne_nil : cs ≠ []
  chars : ∀ c ∈ cs, Token.isWordChar c = true
  value : wordValue? cs = some v

theorem isWord_constant {name : String} {v : Value} (h : (name, v) ∈ constants) :
    IsWord name.toList v := by
  simp only [constants, List.mem_cons, Prod.mk.injEq, List.not_mem_nil, or_false] at h
  rcases h with ⟨rfl, rfl⟩ | ⟨rfl, rfl⟩ | ⟨rfl, rfl⟩ | ⟨rfl, rfl⟩ | ⟨rfl, rfl⟩ | ⟨rfl, rfl⟩
  all_goals exact ⟨List.cons_ne_nil _ _, List.all_eq_true.mp rfl, rfl⟩

theorem isWordChar_of_isPlainDigit {c : Char} (h : isPlainDigit c = true) :
    Token.isWordChar c = true := by
  unfold isPlainDigit at h
  unfold Token.isWordChar Char.isAlphanum Char.isDigit
  simp only [Bool.and_eq_true, decide_eq_true_eq] at h
  simp only [Bool.or_eq_true, Bool.and_eq_true, decide_eq_true_eq]
  exact .inl (.inl (.inl (.inr h)))

theorem wordValue?_of_digit (negative : Bool) {cs : List Char}
    (h : ∃ c ∈ cs.head?, isPlainDigit c = true) :
    wordValue? (signChars negative ++ cs) = unsigned? negative cs := by
  obtain ⟨c, hc, hdigit⟩ := h
  obtain ⟨rest, rfl⟩ : ∃ rest, cs = c :: rest := by
    rcases cs with _ | ⟨d, rest⟩
    · cases hc
    · exact ⟨rest, by rw [Option.some.inj hc]⟩
  have hother (d : Char) (hd : isPlainDigit d = false) : ¬ d = c := by
    rintro rfl
    rw [hd] at hdigit
    cases hdigit
  cases negative
  · unfold wordValue?
    rw [List.find?_eq_none.mpr]
    · have hminus := hother '-' rfl
      simp only [signChars, Bool.false_eq_true, if_false, List.nil_append]
      split
      · next heq =>
        cases heq
        exact absurd rfl hminus
      · rfl
    · simp [constants, signChars, hother 'n' rfl, hother 't' rfl, hother 'f' rfl, hother 'N' rfl,
        hother 'I' rfl, hother '-' rfl]
  · unfold wordValue?
    rw [List.find?_eq_none.mpr]
    · rfl
    · simp [constants, signChars, hother 'I' rfl]

theorem isWholePart_of_head {ds : List Char} (hne : ds ≠ [])
    (h : ds.head? = some '0' → ds = ['0']) : isWholePart ds = true := by
  rcases ds with _ | ⟨c, _ | ⟨d, rest⟩⟩
  · exact absurd rfl hne
  · rfl
  · simp only [isWholePart, bne_iff_ne, ne_eq]
    rintro rfl
    cases h rfl

theorem unsigned?_digitsOfNat (negative : Bool) (n : Nat) :
    unsigned? negative (digitsOfNat n) = some (.whole (if negative then -(n : Int) else n)) := by
  have hds := isDigitsOf_digitsOfNat n
  have hspan := span_append hds.plain [] (fun _ h => by cases h)
  rw [List.append_nil] at hspan
  unfold unsigned?
  simp only [hspan, isWholePart_of_head hds.ne_nil hds.zero_head, hds.value]
  rfl

theorem head_of_readExponent? {cs : List Char} {e : Int} (h : readExponent? cs = some e) :
    ∀ c ∈ cs.head?, c = 'e' ∨ c = 'E' := by
  rcases cs with _ | ⟨d, cs⟩
  · intro c hc
    cases hc
  · intro c hc
    cases hc
    unfold readExponent? at h
    by_cases hletter : (d = 'e' || d = 'E') = true
    · simpa using hletter
    · simp only [if_neg hletter] at h
      cases h

theorem unsigned?_of_writes (negative : Bool) {w : Spelling} {n : Numeral} (hw : w.Writes n) :
    unsigned? negative w.chars = some (.real (n.toDouble negative)) := by
  obtain ⟨whole, fraction, tail⟩ := w
  obtain ⟨e, hexponent, hvalue⟩ := hw.value
  have hwhole := isWholePart_of_head hw.whole_ne_nil hw.whole_head
  have hletter := head_of_readExponent? hexponent
  have htail : ∀ c ∈ tail.head?, isPlainDigit c = false := by
    intro c hc
    rcases hletter c hc with rfl | rfl <;> rfl
  have hreal : Numeral.toDouble negative
      ⟨natOfDigits (whole ++ fraction), e - fraction.length⟩ = n.toDouble negative := by
    unfold Numeral.toDouble
    rw [Numeral.code_congr hvalue]
  rcases fraction with _ | ⟨f, fs⟩
  · obtain ⟨c, more, rfl⟩ := List.exists_cons_of_ne_nil (hw.isReal.resolve_left fun h => h rfl)
    have hpoint : c ≠ '.' := by
      rintro rfl
      rcases hletter '.' rfl with h | h <;> cases h
    have hspan := span_append hw.whole_digits _ htail
    simp [Spelling.chars, unsigned?, hspan, hwhole, hpoint, hexponent, ← hreal]
  · have hspan := span_append hw.whole_digits ('.' :: (f :: fs ++ tail))
      (fun c hc => by cases hc; rfl)
    have hbehind := span_append hw.fraction_digits tail htail
    simp only [List.cons_append] at hspan hbehind
    simp [Spelling.chars, unsigned?, hspan, hbehind, hwhole, hexponent, ← hreal]

theorem isWordChar_of_mem_signChars {negative : Bool} {c : Char} (h : c ∈ signChars negative) :
    Token.isWordChar c = true := by
  unfold signChars at h
  split at h
  · rw [List.mem_singleton.mp h]
    rfl
  · cases h

theorem isWord_intChars (n : Int) : IsWord (intChars n) (.whole n) := by
  have hds := isDigitsOf_digitsOfNat n.natAbs
  have hhead : ∃ c ∈ (digitsOfNat n.natAbs).head?, isPlainDigit c = true :=
    ⟨_, List.head?_eq_some_head hds.ne_nil, hds.plain _ (List.head_mem hds.ne_nil)⟩
  have hchars : intChars n = signChars (n < 0) ++ digitsOfNat n.natAbs := by
    unfold intChars signChars
    by_cases hneg : n < 0
    · simp [hneg]
    · simp [hneg]
  rw [hchars]
  constructor
  · exact List.append_ne_nil_of_right_ne_nil _ hds.ne_nil
  · intro c hc
    rcases List.mem_append.mp hc with hsign | hdigit
    · exact isWordChar_of_mem_signChars hsign
    · exact isWordChar_of_isPlainDigit (hds.plain c hdigit)
  · rw [wordValue?_of_digit _ hhead, unsigned?_digitsOfNat]
    congr 2
    simp only [decide_eq_true_eq]
    split <;> omega

theorem head?_chars_of_writes {w : Spelling} {n : Numeral} (hw : w.Writes n) :
    ∃ c ∈ w.chars.head?, isPlainDigit c = true := by
  refine ⟨w.whole.head hw.whole_ne_nil, ?_, hw.whole_digits _ (List.head_mem _)⟩
  unfold Spelling.chars
  rw [List.head?_append_of_ne_nil _ hw.whole_ne_nil]
  exact List.head?_eq_some_head hw.whole_ne_nil

theorem isWord_of_writes (negative : Bool) {w : Spelling} {n : Numeral} (hw : w.Writes n) :
    IsWord (signChars negative ++ w.chars) (.real (n.toDouble negative)) where
  ne_nil := by
    apply List.append_ne_nil_of_right_ne_nil
    exact List.append_ne_nil_of_left_ne_nil hw.whole_ne_nil _
  chars c hc := by
    rcases List.mem_append.mp hc with hsign | hnumeral
    · exact isWordChar_of_mem_signChars hsign
    · rcases hw.mem_chars hnumeral with hdigit | hmark
      · exact isWordChar_of_isPlainDigit hdigit
      · have hmarks : ['.', 'e', '+', '-'].all Token.isWordChar = true := rfl
        exact List.all_eq_true.mp hmarks c hmark
  value := by
    rw [wordValue?_of_digit negative (head?_chars_of_writes hw), unsigned?_of_writes negative hw]

theorem isWord_doubleChars {x : Double} (h : x.isNaN = true → x = .nan) :
    IsWord (doubleChars x) (.real x) := by
  unfold doubleChars
  split
  · next hnan =>
    rw [h hnan]
    exact isWord_constant (by simp [constants])
  · next hnan =>
    split
    · next hinf =>
      have hcode := Double.ofSignCode_code x
      rw [Double.code_of_isInfinite hinf] at hcode
      rw [← hcode]
      cases hsign : x.isNegative
      · change IsWord "Infinity".toList (.real .infinity)
        exact isWord_constant (by simp [constants])
      · change IsWord "-Infinity".toList (.real Double.infinity.neg)
        exact isWord_constant (by simp [constants])
    · next hinf =>
      have hcode := Double.code_lt_infinityCode (Bool.eq_false_iff.mpr hnan)
        (Bool.eq_false_iff.mpr hinf)
      obtain ⟨w, hchars, hw⟩ := Numeral.exists_spelling_shortest hcode
      have hvalue : (Numeral.shortest x.code).toDouble x.isNegative = x := by
        unfold Numeral.toDouble
        rw [Numeral.code_shortest hcode, Double.ofSignCode_code]
      have hword := isWord_of_writes x.isNegative hw
      rw [hvalue, hchars] at hword
      unfold shortestChars
      rw [if_neg hnan, if_neg hinf]
      exact hword

end Json

end PointStream

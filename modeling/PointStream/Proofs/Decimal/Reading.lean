import PointStream.Proofs.Json.Word

namespace PointStream

open Text Decimal

namespace Text

theorem strip_eq_self {drop : Char → Bool} {cs : List Char} (h : ∀ c ∈ cs, drop c = false) :
    strip drop cs = cs := by
  have hreverse : ∀ c ∈ cs.reverse, drop c = false := by simpa using h
  rw [strip, dropWhile_eq_self h, dropWhile_eq_self hreverse, List.reverse_reverse]

theorem mem_strip {drop : Char → Bool} {cs : List Char} {c : Char} (h : c ∈ cs)
    (hdrop : drop c = false) : c ∈ strip drop cs := by
  rw [strip, List.mem_reverse]
  exact mem_dropWhile (List.mem_reverse.mpr (mem_dropWhile h hdrop)) hdrop

end Text

/-- A double, with the NaN that has no sign in place of any other. -/
def Double.canonical (x : Double) : Double :=
  if x.isNaN then .nan else x

@[simp]
theorem Double.canonical_canonical (x : Double) : x.canonical.canonical = x.canonical := by
  by_cases h : x.isNaN = true
  · rw [canonical, canonical, if_pos h]
    rfl
  · rw [canonical, canonical, if_neg h, if_neg h]

namespace Decimal

/-- The characters in the texts of doubles. -/
def alphabet : List Char :=
  ['0', '1', '2', '3', '4', '5', '6', '7', '8', '9', '.', '+', '-', 'a', 'e', 'f', 'i', 'n']

theorem mem_alphabet_of_isPlainDigit {c : Char} (h : isPlainDigit c = true) :
    c ∈ alphabet := by
  have hrange : 0x30 ≤ c.toNat ∧ c.toNat ≤ 0x39 := by
    unfold isPlainDigit at h
    rw [Bool.and_eq_true, decide_eq_true_eq, decide_eq_true_eq] at h
    exact h
  have hdigit : ∀ n < 10, digitChar n ∈ alphabet := by decide
  have hmem := hdigit (c.toNat - 0x30) (by omega)
  have hback : 0x30 + (c.toNat - 0x30) = c.toNat := by omega
  rwa [digitChar, hback, Char.ofNat_toNat] at hmem

theorem mem_alphabet_of_mem_signChars {negative : Bool} {c : Char}
    (h : c ∈ signChars negative) : c ∈ alphabet := by
  cases negative
  · cases h
  · rw [List.mem_singleton.mp h]
    decide

theorem shortestChars_cases (x : Double) :
    x.isNaN = true ∧ shortestChars x = ['n', 'a', 'n'] ∨
      x.isNaN = false ∧ ∃ cs, shortestChars x = signChars x.isNegative ++ cs ∧
        (x.code = infinityCode ∧ cs = ['i', 'n', 'f'] ∨
          ∃ (w : Spelling) (n : Numeral), cs = w.chars ∧ w.Writes n ∧ n.code = x.code) := by
  unfold shortestChars
  split
  · next hnan => exact .inl ⟨hnan, rfl⟩
  · next hnan =>
    have hnan := Bool.eq_false_iff.mpr hnan
    refine .inr ⟨hnan, _, rfl, ?_⟩
    split
    · next hinf => exact .inl ⟨Double.code_of_isInfinite hinf, rfl⟩
    · next hinf =>
      have hcode := Double.code_lt_infinityCode hnan (Bool.eq_false_iff.mpr hinf)
      obtain ⟨w, hchars, hw⟩ := Numeral.exists_spelling_shortest hcode
      exact .inr ⟨w, _, hchars.symm, hw, Numeral.code_shortest hcode⟩

theorem mem_alphabet_of_mem_shortestChars {x : Double} {c : Char}
    (h : c ∈ shortestChars x) : c ∈ alphabet := by
  rcases shortestChars_cases x with ⟨_, hchars⟩ | ⟨_, cs, hchars, hcs⟩
  · rw [hchars] at h
    exact (by decide : ['n', 'a', 'n'] ⊆ alphabet) h
  · rw [hchars] at h
    rcases List.mem_append.mp h with hsign | hc
    · exact mem_alphabet_of_mem_signChars hsign
    · rcases hcs with ⟨_, rfl⟩ | ⟨w, n, rfl, hw, _⟩
      · exact (by decide : ['i', 'n', 'f'] ⊆ alphabet) hc
      · rcases hw.mem_chars hc with hdigit | hmark
        · exact mem_alphabet_of_isPlainDigit hdigit
        · exact (by decide : ['.', 'e', '+', '-'] ⊆ alphabet) hmark

theorem shortestChars_ne_nil (x : Double) : shortestChars x ≠ [] := by
  rcases shortestChars_cases x with ⟨_, hchars⟩ | ⟨_, cs, hchars, hcs⟩
  · rw [hchars]
    exact List.cons_ne_nil _ _
  · rw [hchars]
    apply List.append_ne_nil_of_right_ne_nil
    rcases hcs with ⟨_, rfl⟩ | ⟨w, n, rfl, hw, _⟩
    · exact List.cons_ne_nil _ _
    · exact List.append_ne_nil_of_left_ne_nil hw.whole_ne_nil _

end Decimal

namespace Number

theorem joinDigits_eq {cs : List Char} (h : '_' ∉ cs) (afterDigit : Bool) :
    joinDigits afterDigit cs = some cs := by
  induction cs generalizing afterDigit with
  | nil => rfl
  | cons c cs ih =>
      obtain ⟨hc, hcs⟩ := not_or.mp (List.mem_cons.not.mp h)
      rw [joinDigits, if_neg (Ne.symm hc), ih hcs]
      rfl

theorem plainForm?_eq {cs : List Char} (h : ∀ c ∈ cs, c ∈ alphabet) : plainForm? cs = some cs := by
  have hblank : ∀ c ∈ alphabet, isWhiteSpace c = false :=
    List.forall_iff_forall_mem.mp (by decide)
  have hplain : ∀ c ∈ alphabet, plainDigit c = c :=
    List.forall_iff_forall_mem.mp (by decide)
  have hmap : cs.map plainDigit = cs := by
    rw [List.map_congr_left fun c hc => hplain c (h c hc), List.map_id']
  rw [plainForm?, strip_eq_self fun c hc => hblank c (h c hc), hmap]
  exact joinDigits_eq (fun hmem => (by decide : '_' ∉ alphabet) (h _ hmem)) false

theorem exists_readNumeral? {w : Spelling} {n : Numeral} (hw : w.Writes n) :
    ∃ m, readNumeral? w.chars = some m ∧ m.value = n.value := by
  obtain ⟨whole, fraction, tail⟩ := w
  obtain ⟨e, hexponent, hvalue⟩ := hw.value
  refine ⟨_, ?_, hvalue⟩
  have hletter := Json.head_of_readExponent? hexponent
  have htail : ∀ c ∈ tail.head?, isPlainDigit c = false := by
    intro c hc
    rcases hletter c hc with rfl | rfl <;> rfl
  have hpoint : tail.head? ≠ some '.' := by
    intro hhead
    rcases hletter '.' hhead with h | h <;> cases h
  rcases fraction with _ | ⟨f, fs⟩
  · have hspan := span_append hw.whole_digits tail htail
    simp only [readNumeral?, Spelling.chars, List.isEmpty_nil, if_true, List.nil_append, hspan]
    split
    · exact absurd rfl hpoint
    · simp [hexponent, hw.whole_ne_nil]
  · have hspan := span_append hw.whole_digits ('.' :: (f :: fs ++ tail))
      (fun c hc => by cases hc; rfl)
    have hbehind := span_append hw.fraction_digits tail htail
    simp only [List.cons_append] at hspan hbehind
    simp [Spelling.chars, readNumeral?, hspan, hbehind, hexponent]

theorem readCode?_of_writes {w : Spelling} {n : Numeral} (hw : w.Writes n) :
    readCode? w.chars = some n.code := by
  obtain ⟨m, hm, hvalue⟩ := exists_readNumeral? hw
  obtain ⟨c, hc, hdigit⟩ := Json.head?_chars_of_writes hw
  obtain ⟨rest, hrest⟩ : ∃ rest, w.chars = c :: rest := List.head?_eq_some_iff.mp hc
  have hletter : ∀ d ∈ alphabet, isPlainDigit d = true → d.toLower ≠ 'i' ∧ d.toLower ≠ 'n' :=
    List.forall_iff_forall_mem.mp (by decide)
  have hword := hletter c (mem_alphabet_of_isPlainDigit hdigit) hdigit
  unfold readCode?
  rw [hm, ← Numeral.code_congr hvalue, hrest]
  simp [hword]

theorem splitSign_signChars (negative : Bool) {cs : List Char}
    (h : ∀ c ∈ cs.head?, c ≠ '-' ∧ c ≠ '+') :
    splitSign (signChars negative ++ cs) = (negative, cs) := by
  cases negative
  · rcases cs with _ | ⟨c, cs⟩
    · rfl
    · obtain ⟨hminus, hplus⟩ := h c rfl
      simp [signChars, splitSign, hminus, hplus]
  · rfl

/-- The text of a double reads back to the double, that of a NaN to the one without a sign. -/
theorem readDouble?_shortestChars (x : Double) :
    readDouble? (shortestChars x) = some x.canonical := by
  rw [readDouble?, plainForm?_eq fun c hc => mem_alphabet_of_mem_shortestChars hc, Option.bind_some]
  rcases shortestChars_cases x with ⟨hnan, hchars⟩ | ⟨hnan, cs, hchars, hcs⟩
  · rw [hchars, Double.canonical, if_pos hnan]
    rfl
  · have hread : readCode? cs = some x.code ∧ ∀ c ∈ cs.head?, c ≠ '-' ∧ c ≠ '+' := by
      rcases hcs with ⟨hinf, rfl⟩ | ⟨w, n, rfl, hw, hcode⟩
      · rw [hinf]
        exact ⟨rfl, fun c hc => by cases hc; decide⟩
      · rw [readCode?_of_writes hw, hcode]
        refine ⟨rfl, fun c hc => ?_⟩
        obtain ⟨d, hd, hdigit⟩ := Json.head?_chars_of_writes hw
        obtain rfl : d = c := Option.some.inj (hd.symm.trans hc)
        constructor
        · rintro rfl
          cases hdigit
        · rintro rfl
          cases hdigit
    rw [hchars, splitSign_signChars _ hread.2, Double.canonical, hnan]
    dsimp only
    rw [hread.1, Option.map_some, Double.ofSignCode_code, if_neg Bool.false_ne_true]

end Number

end PointStream

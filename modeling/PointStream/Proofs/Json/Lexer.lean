import PointStream.Proofs.Json.Text

/-!
# What the lexer reads

Over a text of plain characters, whatever the lexer reads between quotes is a row in which no two
halves of a pair stand together: two halves that follow one another are joined, and a character is
no half. An invariant of the states of the lexer carries this from one character to the next.
-/

namespace PointStream.Json.Token

open Text

/-- The characters read so far inside a string write a row, and a first half at its end is still
pending. -/
def Holds (cs : List Char) (high : Option Nat) : Prop :=
  ∃ ns, IsRow ns ∧ cs.reverse = ns.flatMap charsOfCodePoint ∧
    match high with
    | none => ∀ m ∈ ns.getLast?, isFirstHalf m = false
    | some f => isFirstHalf f = true

theorem holds_nil : Holds [] none :=
  ⟨[], ⟨by simp, List.isChain_nil⟩, rfl, by simp⟩

theorem Holds.settled {cs : List Char} {high : Option Nat} (h : Holds cs high) :
    ∃ ns, IsRow ns ∧ (settle cs high).reverse = ns.flatMap charsOfCodePoint ∧
      ∀ m ∈ ns.getLast?, isFirstHalf m = true → high ≠ none := by
  obtain ⟨ns, hns, hcs, hlast⟩ := h
  rcases high with _ | f
  · refine ⟨ns, hns, hcs, ?_⟩
    intro m hm hfirst
    rw [hlast m hm] at hfirst
    cases hfirst
  · have hf : 0xD800 ≤ f ∧ f < 0xDC00 := by simpa [isFirstHalf] using hlast
    refine ⟨ns ++ [f], isRow_append_singleton hns (by omega) ?_, ?_, fun _ _ _ => by simp⟩
    · rintro m - -
      simp [isSecondHalf]
      omega
    · simp [settle, pushPoint, hcs]

theorem Holds.isText {cs : List Char} {high : Option Nat} (h : Holds cs high) :
    IsText (String.ofList (settle cs high).reverse) := by
  obtain ⟨ns, hns, hcs, -⟩ := h.settled
  exact ⟨ns, hns, by rw [hcs]; rfl⟩

/-- What the lexer may hold in its states: rows inside strings, and no more digits than a code unit
has. -/
def State.Sound : State → Prop
  | .between => True
  | .inWord _ => True
  | .inString cs high => Holds cs high
  | .escape cs high => Holds cs high
  | .inUnit cs high value owed => Holds cs high ∧ 1 ≤ owed ∧ (value + 1) * 16 ^ owed ≤ 0x10000

theorem between_sound : State.between.Sound :=
  trivial

theorem afterPoint_sound {cs : List Char} {high : Option Nat} (h : Holds cs high) {n : Nat}
    (hn : n < 0x110000) (hapart : high ≠ none → isSecondHalf n = false) :
    (afterPoint (settle cs high) n).Sound := by
  obtain ⟨ns, hns, hcs, hlast⟩ := h.settled
  unfold afterPoint
  split
  · next hfirst => exact ⟨ns, hns, hcs, hfirst⟩
  · next hfirst =>
    refine ⟨ns ++ [n], isRow_append_singleton hns hn ?_, ?_, ?_⟩
    · exact fun m hm hm' => hapart (hlast m hm hm')
    · simp [pushPoint, hcs]
    · simpa using hfirst

theorem afterUnit_sound {cs : List Char} {high : Option Nat} (h : Holds cs high) {n : Nat}
    (hn : n < 0x10000) : (afterUnit cs high n).Sound := by
  by_cases hapart : high ≠ none → isSecondHalf n = false
  · rw [afterUnit_eq_afterPoint cs hapart]
    exact afterPoint_sound h (by omega) hapart
  · rw [Classical.not_imp, Bool.not_eq_false] at hapart
    obtain ⟨hsome, hsecond⟩ := hapart
    obtain ⟨f, rfl⟩ := Option.ne_none_iff_exists'.mp hsome
    obtain ⟨ns, hns, hcs, hfirst⟩ := h
    have hf : 0xD800 ≤ f ∧ f < 0xDC00 := by simpa [isFirstHalf] using hfirst
    have hs : 0xDC00 ≤ n ∧ n < 0xE000 := by simpa [isSecondHalf] using hsecond
    rw [afterUnit_pair cs f hsecond]
    refine ⟨ns ++ [0x10000 + (f - 0xD800) * 0x400 + (n - 0xDC00)],
      isRow_append_singleton hns (by omega) ?_, ?_, ?_⟩
    · rintro m - -
      simp [isSecondHalf]
      omega
    · simp [pushPoint, hcs]
    · simp [isFirstHalf]
      omega

theorem push_sound {cs : List Char} {high : Option Nat} (h : Holds cs high) {c : Char}
    (hc : c ≠ escapeMark) : (State.inString (c :: settle cs high) none).Sound := by
  have hfirst : ¬ isFirstHalf c.toNat = true := by
    rw [isFirstHalf_toNat]
    exact Bool.false_ne_true
  have hrange := toNat_range c
  have hsound := afterPoint_sound h (n := c.toNat) (by omega) fun _ => isSecondHalf_toNat c
  rw [afterPoint, if_neg hfirst, pushPoint, charsOfCodePoint_toNat hc] at hsound
  exact hsound

theorem pushTwice_sound {cs : List Char} {high : Option Nat} (h : Holds cs high) :
    (State.inString (escapeMark :: escapeMark :: settle cs high) none).Sound :=
  afterPoint_sound h (n := escapeMark.toNat) (by decide) fun _ => rfl

def Sound : Token → Prop
  | .string s => IsText s
  | _ => True

theorem begin?_sound {c : Char} {tokens : List Token} {next : State}
    (h : begin? c = some (tokens, next)) : next.Sound ∧ ∀ t ∈ tokens, t.Sound := by
  unfold begin? at h
  split at h
  · cases h
    exact ⟨trivial, by simp⟩
  · split at h
    · cases h
      exact ⟨holds_nil, by simp⟩
    · split at h
      · cases h
        exact ⟨trivial, by simp⟩
      · obtain ⟨t, hmark, heq⟩ := Option.map_eq_some_iff.mp h
        cases heq
        refine ⟨trivial, ?_⟩
        intro t ht
        rw [List.mem_singleton.mp ht]
        unfold mark? at hmark
        split_ifs at hmark
        all_goals cases hmark; trivial

theorem escaped?_ne_mark {c e : Char} (h : escaped? c = some e) : e ≠ escapeMark := by
  unfold escaped? at h
  split_ifs at h with hself
  · cases h
    rintro rfl
    revert hself
    decide
  all_goals cases h; decide

theorem hexValue?_lt {c : Char} {d : Nat} (h : hexValue? c = some d) : d < 16 := by
  unfold hexValue? at h
  split_ifs at h with hdigit hsmall hcapital
  · simp only [Bool.and_eq_true, decide_eq_true_eq] at hdigit
    have hle : c.toNat ≤ '9'.toNat := hdigit.2
    cases h
    change c.toNat ≤ 0x39 at hle
    omega
  · simp only [Bool.and_eq_true, decide_eq_true_eq] at hsmall
    have hle : c.toNat ≤ 'f'.toNat := hsmall.2
    cases h
    change c.toNat ≤ 0x66 at hle
    omega
  · simp only [Bool.and_eq_true, decide_eq_true_eq] at hcapital
    have hle : c.toNat ≤ 'F'.toNat := hcapital.2
    cases h
    change c.toNat ≤ 0x46 at hle
    omega

theorem step?_sound {state next : State} {c : Char} {tokens : List Token} (hc : c ≠ escapeMark)
    (hs : state.Sound) (h : step? state c = some (tokens, next)) :
    next.Sound ∧ ∀ t ∈ tokens, t.Sound := by
  cases state with
  | between => exact begin?_sound h
  | inWord cs =>
      unfold step? at h
      dsimp only at h
      split at h
      · cases h
        exact ⟨trivial, by simp⟩
      · obtain ⟨⟨more, state⟩, hbegin, heq⟩ := Option.map_eq_some_iff.mp h
        cases heq
        obtain ⟨hstate, hmore⟩ := begin?_sound hbegin
        exact ⟨hstate, List.forall_mem_cons.mpr ⟨trivial, hmore⟩⟩
  | inString cs high =>
      unfold step? at h
      dsimp only at h
      split_ifs at h
      · cases h
        exact ⟨trivial, List.forall_mem_singleton.mpr (Holds.isText hs)⟩
      · cases h
        exact ⟨hs, by simp⟩
      · cases h
        exact ⟨push_sound hs hc, by simp⟩
  | escape cs high =>
      unfold step? at h
      dsimp only at h
      split_ifs at h
      · cases h
        exact ⟨⟨hs, by decide, by decide⟩, by simp⟩
      · obtain ⟨e, hescaped, heq⟩ := Option.map_eq_some_iff.mp h
        cases heq
        exact ⟨push_sound hs (escaped?_ne_mark hescaped), by simp⟩
  | inUnit cs high value owed =>
      obtain ⟨hs, howed, hvalue⟩ := hs
      obtain ⟨d, hd, heq⟩ := Option.map_eq_some_iff.mp h
      have hlt := hexValue?_lt hd
      obtain ⟨more, rfl⟩ : ∃ more, owed = more + 1 := ⟨owed - 1, by omega⟩
      rw [Nat.pow_succ', ← Nat.mul_assoc] at hvalue
      dsimp only at heq
      split_ifs at heq with hlast
      · cases heq
        obtain rfl : more = 0 := by omega
        exact ⟨afterUnit_sound hs (by omega), by simp⟩
      · cases heq
        refine ⟨⟨hs, by omega, ?_⟩, by simp⟩
        exact (Nat.mul_le_mul_right _ (by omega)).trans hvalue

theorem scan?_escapeMark (cs : List Char) (high : Option Nat) (rest : List Char) :
    scan? (.inString cs high) (escapeMark :: rest) =
      scan? (.inString (escapeMark :: settle cs high) none) rest :=
  scan?_cons_silent rfl rest

theorem scan?_escapeMarks_sound {state : State} {rest : List Char} {tokens : List Token}
    (hs : state.Sound) (h : scan? state (escapeMark :: escapeMark :: rest) = some tokens) :
    ∃ next : State, next.Sound ∧ scan? next rest = some tokens := by
  cases state with
  | inString cs high =>
      rw [scan?_escapeMark, scan?_escapeMark] at h
      exact ⟨_, pushTwice_sound hs, h⟩
  | between => cases h
  | inWord cs => cases h
  | escape cs high => cases h
  | inUnit cs high value owed => cases h

/-- The lexer reads texts between quotes. -/
theorem scan?_sound {state : State} {cs : List Char} {tokens : List Token} (hs : state.Sound)
    (h : scan? state ((cs.map Char.toNat).flatMap charsOfCodePoint) = some tokens) :
    ∀ t ∈ tokens, t.Sound := by
  induction cs generalizing state tokens with
  | nil =>
      cases state with
      | between =>
          cases h
          simp
      | inWord cs =>
          cases h
          exact List.forall_mem_singleton.mpr trivial
      | inString cs high => cases h
      | escape cs high => cases h
      | inUnit cs high value owed => cases h
  | cons c cs ih =>
      rw [List.map_cons, List.flatMap_cons] at h
      by_cases hc : c = escapeMark
      · subst hc
        obtain ⟨next, hnext, hscan⟩ := scan?_escapeMarks_sound hs h
        exact ih hnext hscan
      · rw [charsOfCodePoint_toNat hc, List.singleton_append, scan?_cons] at h
        obtain ⟨⟨first, next⟩, hstep, hrest⟩ := Option.bind_eq_some_iff.mp h
        obtain ⟨others, hothers, heq⟩ := Option.map_eq_some_iff.mp hrest
        obtain ⟨hnext, hfirst⟩ := step?_sound hc hs hstep
        subst heq
        exact List.forall_mem_append.mpr ⟨hfirst, ih hnext hothers⟩

end PointStream.Json.Token

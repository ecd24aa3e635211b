import Mathlib.Data.List.Chain
import PointStream.Json.Printer
import PointStream.Json.Token

namespace PointStream

namespace Text

def isFirstHalf (n : Nat) : Bool :=
  0xD800 ≤ n && n < 0xDC00

def isSecondHalf (n : Nat) : Bool :=
  0xDC00 ≤ n && n < 0xE000

/-- Whether two code points stay two when one stands before the other. -/
def StaysApart (m n : Nat) : Prop :=
  isFirstHalf m = true → isSecondHalf n = false

/-- A row of code points as it stands in a text. -/
structure IsRow (ns : List Nat) : Prop where
  inRange : ∀ n ∈ ns, n < 0x110000
  apart : ns.IsChain StaysApart

def IsText (s : String) : Prop :=
  ∃ ns, IsRow ns ∧ s = ofCodePoints ns

theorem isRow_append_singleton {ns : List Nat} {n : Nat} (h : IsRow ns) (hn : n < 0x110000)
    (hlast : ∀ m ∈ ns.getLast?, StaysApart m n) : IsRow (ns ++ [n]) where
  inRange m hm := by
    rcases List.mem_append.mp hm with hm | hm
    · exact h.inRange m hm
    · rw [List.mem_singleton.mp hm]
      exact hn
  apart := by
    rw [List.isChain_append]
    refine ⟨h.apart, List.isChain_singleton n, ?_⟩
    intro m hm k hk
    cases hk
    exact hlast m hm

theorem charsOfCodePoint_of_lt {n : Nat} (h : n < 0xD800) :
    charsOfCodePoint n = [Char.ofNat n] := by
  have hmark : escapeMark.toNat = 0xFDD0 := rfl
  unfold charsOfCodePoint isHalf
  rw [if_neg (by simp; omega), if_neg (by omega)]

theorem toNat_range (c : Char) :
    c.toNat < 0xD800 ∨ 0xDFFF < c.toNat ∧ c.toNat < 0x110000 :=
  c.valid

theorem isFirstHalf_toNat (c : Char) : isFirstHalf c.toNat = false := by
  have hrange := toNat_range c
  simp [isFirstHalf]
  omega

theorem isSecondHalf_toNat (c : Char) : isSecondHalf c.toNat = false := by
  have hrange := toNat_range c
  simp [isSecondHalf]
  omega

theorem charsOfCodePoint_toNat {c : Char} (h : c ≠ escapeMark) :
    charsOfCodePoint c.toNat = [c] := by
  have hrange := toNat_range c
  have hhalf : isHalf c.toNat = false := by
    simp [isHalf]
    omega
  have hmark : c.toNat ≠ escapeMark.toNat := fun heq => h (Char.toNat_inj.mp heq)
  unfold charsOfCodePoint
  rw [hhalf, if_neg Bool.false_ne_true, if_neg hmark, Char.ofNat_toNat]

theorem isText_of_not_mem {s : String} (h : escapeMark ∉ s.toList) : IsText s := by
  refine ⟨s.toList.map Char.toNat, ⟨?_, ?_⟩, ?_⟩
  · simp only [List.mem_map]
    rintro _ ⟨c, _, rfl⟩
    have hrange := toNat_range c
    omega
  · apply List.Pairwise.isChain
    apply List.pairwise_of_forall_mem_list
    simp only [List.mem_map]
    rintro _ ⟨c, _, rfl⟩ _ ⟨d, _, rfl⟩ _
    exact isSecondHalf_toNat d
  · have hchars : (s.toList.map Char.toNat).flatMap charsOfCodePoint = s.toList := by
      rw [List.flatMap_map]
      calc s.toList.flatMap (fun c => charsOfCodePoint c.toNat) = s.toList.flatMap (fun c => [c]) :=
            List.flatMap_congr fun c hc => charsOfCodePoint_toNat fun heq => h (heq ▸ hc)
        _ = s.toList := List.flatMap_singleton' s.toList
    rw [ofCodePoints, hchars, String.ofList_toList]

end Text

namespace Json.Token

open Text

theorem scan?_cons (state : State) (c : Char) (rest : List Char) :
    scan? state (c :: rest) =
      (step? state c).bind fun next => (scan? next.2 rest).map (next.1 ++ ·) := by
  cases state <;> rw [scan?] <;> split <;> simp_all

theorem scan?_cons_silent {state next : State} {c : Char} (h : step? state c = some ([], next))
    (rest : List Char) : scan? state (c :: rest) = scan? next rest := by
  rw [scan?_cons, h]
  exact Option.map_id'

theorem scan?_cons_token {state next : State} {c : Char} {t : Token}
    (h : step? state c = some ([t], next)) (rest : List Char) :
    scan? state (c :: rest) = (scan? next rest).map (t :: ·) := by
  rw [scan?_cons, h]
  rfl

theorem hexValue?_hexDigit {d : Nat} (h : d < 16) : hexValue? (hexDigit d) = some d := by
  decide +revert

theorem step?_inUnit (cs : List Char) (high : Option Nat) (value : Nat) {d : Nat} (hd : d < 16)
    (owed : Nat) :
    step? (.inUnit cs high value owed) (hexDigit d) = some ([],
      if owed ≤ 1 then afterUnit cs high (16 * value + d)
      else .inUnit cs high (16 * value + d) (owed - 1)) := by
  simp only [step?, hexValue?_hexDigit hd, Option.map_some]
  split <;> rfl

theorem scan?_backslash (cs : List Char) (high : Option Nat) (rest : List Char) :
    scan? (.inString cs high) ('\\' :: rest) = scan? (.escape cs high) rest :=
  scan?_cons_silent rfl rest

theorem scan?_unit (cs : List Char) (high : Option Nat) (rest : List Char) :
    scan? (.escape cs high) ('u' :: rest) = scan? (.inUnit cs high 0 4) rest :=
  scan?_cons_silent rfl rest

theorem scan?_quote (rest : List Char) :
    scan? .between ('"' :: rest) = scan? (.inString [] none) rest :=
  scan?_cons_silent rfl rest

theorem scan?_unitEscape (cs : List Char) (high : Option Nat) {n : Nat} (hn : n < 0x10000)
    (rest : List Char) :
    scan? (.inString cs high) (unitEscape n ++ rest) = scan? (afterUnit cs high n) rest := by
  have hdigits : hexDigits 4 n = [hexDigit (n / 16 / 16 / 16 % 16), hexDigit (n / 16 / 16 % 16),
      hexDigit (n / 16 % 16), hexDigit (n % 16)] := rfl
  have hunit : 16 * (16 * (16 * (16 * 0 + n / 16 / 16 / 16 % 16) + n / 16 / 16 % 16) +
      n / 16 % 16) + n % 16 = n := by omega
  have hlt (m : Nat) : m % 16 < 16 := Nat.mod_lt m (by decide)
  unfold unitEscape
  rw [hdigits]
  simp only [List.cons_append, List.nil_append]
  rw [scan?_backslash, scan?_unit,
    scan?_cons_silent (step?_inUnit cs high _ (hlt _) 4), if_neg (by decide),
    scan?_cons_silent (step?_inUnit cs high _ (hlt _) 3), if_neg (by decide),
    scan?_cons_silent (step?_inUnit cs high _ (hlt _) 2), if_neg (by decide),
    scan?_cons_silent (step?_inUnit cs high _ (hlt _) 1), if_pos (by decide), hunit]

theorem scan?_letterEscape (cs : List Char) (high : Option Nat) {c e : Char} (hc : c ≠ 'u')
    (he : escaped? c = some e) (rest : List Char) :
    scan? (.inString cs high) ('\\' :: c :: rest) =
      scan? (.inString (e :: settle cs high) none) rest := by
  rw [scan?_backslash, scan?_cons_silent]
  simp [step?, hc, he]

/-- The state inside a string behind one more code point. -/
def afterPoint (cs : List Char) (n : Nat) : State :=
  if isFirstHalf n then .inString cs (some n) else .inString (pushPoint n cs) none

theorem afterPoint_of_lt (cs : List Char) {n : Nat} (h : n < 0xD800) :
    afterPoint cs n = .inString (Char.ofNat n :: cs) none := by
  unfold afterPoint isFirstHalf pushPoint
  rw [if_neg (by simp; omega), charsOfCodePoint_of_lt h]
  rfl

theorem afterUnit_firstHalf (cs : List Char) (high : Option Nat) {n : Nat}
    (h : isFirstHalf n = true) : afterUnit cs high n = .inString (settle cs high) (some n) :=
  if_pos h

theorem afterUnit_pair (cs : List Char) (f : Nat) {n : Nat} (h : isSecondHalf n = true) :
    afterUnit cs (some f) n =
      .inString (pushPoint (0x10000 + (f - 0xD800) * 0x400 + (n - 0xDC00)) cs) none := by
  have hfirst : ¬ isFirstHalf n = true := by
    simp [isFirstHalf, isSecondHalf] at h ⊢
    omega
  exact (if_neg hfirst).trans (if_pos h)

theorem afterUnit_eq_afterPoint (cs : List Char) {high : Option Nat} {n : Nat}
    (h : high ≠ none → isSecondHalf n = false) :
    afterUnit cs high n = afterPoint (settle cs high) n := by
  unfold afterUnit afterPoint isFirstHalf
  split
  · rfl
  · split
    · next hsecond =>
      rcases high with _ | f
      · rfl
      · rw [show isSecondHalf n = true from hsecond] at h
        cases h (Option.some_ne_none f)
    · rfl

theorem afterPoint_of_le (cs : List Char) {n : Nat} (h : 0x10000 ≤ n) :
    afterPoint cs n = .inString (pushPoint n cs) none := by
  unfold afterPoint isFirstHalf
  rw [if_neg (by simp; omega)]

theorem escapePoint_cases (n : Nat) :
    (∃ c, c ≠ 'u' ∧ escaped? c = some (Char.ofNat n) ∧ n < 0xD800 ∧ escapePoint n = ['\\', c]) ∨
    (0x20 ≤ n ∧ n < 0x7F ∧ n ≠ '"'.toNat ∧ n ≠ '\\'.toNat ∧ escapePoint n = [Char.ofNat n]) ∨
    (n < 0x10000 ∧ escapePoint n = unitEscape n) ∨
    (0x10000 ≤ n ∧ escapePoint n = unitEscape (0xD800 + (n - 0x10000) / 0x400) ++
      unitEscape (0xDC00 + (n - 0x10000) % 0x400)) := by
  unfold escapePoint
  split_ifs with hquoted hline hreturn htab hback hfeed hplain hunit
  · simp only [Bool.or_eq_true, decide_eq_true_eq] at hquoted
    rcases hquoted with rfl | rfl
    · exact .inl ⟨_, by decide, rfl, by decide, rfl⟩
    · exact .inl ⟨_, by decide, rfl, by decide, rfl⟩
  · exact .inl ⟨'n', by decide, by rw [hline]; rfl, by rw [hline]; decide, rfl⟩
  · exact .inl ⟨'r', by decide, by rw [hreturn]; rfl, by rw [hreturn]; decide, rfl⟩
  · exact .inl ⟨'t', by decide, by rw [htab]; rfl, by rw [htab]; decide, rfl⟩
  · exact .inl ⟨'b', by decide, by rw [hback]; rfl, by rw [hback]; decide, rfl⟩
  · exact .inl ⟨'f', by decide, by rw [hfeed]; rfl, by rw [hfeed]; decide, rfl⟩
  · simp only [Bool.or_eq_true, decide_eq_true_eq, not_or] at hquoted
    simp only [Bool.and_eq_true, decide_eq_true_eq] at hplain
    exact .inr (.inl ⟨hplain.1, hplain.2, hquoted.1, hquoted.2, rfl⟩)
  · exact .inr (.inr (.inl ⟨hunit, rfl⟩))
  · exact .inr (.inr (.inr ⟨Nat.not_lt.mp hunit, rfl⟩))

theorem scan?_escapePoint (cs : List Char) {high : Option Nat} {n : Nat} (hn : n < 0x110000)
    (h : high ≠ none → isSecondHalf n = false) (rest : List Char) :
    scan? (.inString cs high) (escapePoint n ++ rest) =
      scan? (afterPoint (settle cs high) n) rest := by
  rcases escapePoint_cases n with ⟨c, hc, hescaped, hlt, heq⟩ | ⟨hge, hlt, hquote, hslash, heq⟩ |
    ⟨hlt, heq⟩ | ⟨hge, heq⟩
  · rw [heq, afterPoint_of_lt _ hlt]
    exact scan?_letterEscape cs high hc hescaped rest
  · have htoNat : (Char.ofNat n).toNat = n := by
      apply toNat_ofNat hn
      simp [isHalf]
      omega
    have hquote : Char.ofNat n ≠ '"' := fun heq => hquote (by rw [← heq, htoNat])
    have hslash : Char.ofNat n ≠ '\\' := fun heq => hslash (by rw [← heq, htoNat])
    rw [heq, afterPoint_of_lt _ (by omega)]
    apply scan?_cons_silent
    simp only [step?, hquote, hslash, htoNat, if_false, if_neg (Nat.not_lt.mpr hge)]
  · rw [heq, scan?_unitEscape cs high hlt, afterUnit_eq_afterPoint cs h]
  · have hpair : 0x10000 + (0xD800 + (n - 0x10000) / 0x400 - 0xD800) * 0x400 +
        (0xDC00 + (n - 0x10000) % 0x400 - 0xDC00) = n := by omega
    have hfirst : isFirstHalf (0xD800 + (n - 0x10000) / 0x400) = true := by
      simp [isFirstHalf]
      omega
    have hsecond : isSecondHalf (0xDC00 + (n - 0x10000) % 0x400) = true := by
      simp [isSecondHalf]
      omega
    rw [heq, List.append_assoc, scan?_unitEscape cs high (by omega),
      afterUnit_firstHalf cs high hfirst, scan?_unitEscape _ _ (by omega),
      afterUnit_pair _ _ hsecond, hpair, afterPoint_of_le _ hge]

/-- The lexer reads a row of code points that is written, up to the closing quote. -/
theorem scan?_row (cs : List Char) (high : Option Nat) {ns : List Nat} (hns : IsRow ns)
    (h : high ≠ none → ∀ n ∈ ns.head?, isSecondHalf n = false) (rest : List Char) :
    scan? (.inString cs high) (ns.flatMap escapePoint ++ '"' :: rest) =
      (scan? .between rest).map
        (string (String.ofList ((settle cs high).reverse ++ ns.flatMap charsOfCodePoint)) ::
          ·) := by
  induction ns generalizing cs high with
  | nil =>
      rw [List.flatMap_nil, List.flatMap_nil, List.append_nil]
      exact scan?_cons_token rfl rest
  | cons n ns ih =>
      obtain ⟨hrange, hchain⟩ := hns
      rw [List.isChain_cons] at hchain
      have hrow : IsRow ns := ⟨fun m hm => hrange m (List.mem_cons_of_mem n hm), hchain.2⟩
      rw [List.flatMap_cons, List.flatMap_cons, List.append_assoc,
        scan?_escapePoint cs (hrange n List.mem_cons_self) (fun hne => h hne n rfl)]
      unfold afterPoint
      split
      · next hfirst =>
        rw [ih _ _ hrow fun _ m hm => hchain.1 m hm hfirst]
        simp [settle, pushPoint]
      · rw [ih _ _ hrow fun hne => absurd rfl hne]
        simp [settle, pushPoint]

theorem scan?_stringChars {s : String} (hs : IsText s) (rest : List Char) :
    scan? .between (stringChars s ++ rest) = (scan? .between rest).map (string s :: ·) := by
  obtain ⟨ns, hns, rfl⟩ := hs
  unfold stringChars
  rw [codePoints_ofCodePoints hns.inRange]
  simp only [List.cons_append, List.append_assoc, List.nil_append]
  rw [scan?_quote, scan?_row [] none hns fun hne => absurd rfl hne]
  rfl

end Json.Token

end PointStream

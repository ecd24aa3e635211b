/-!
# Code points

A text from outside is a row of code points, and among them may be half of a surrogate pair, for
which there is no character. Texts are strings all the same: a half is written as two characters,
an escape mark and a private character, and the mark, should it occur, is written twice. The rows
of code points and the strings that write them are in step: `codePoints_ofCodePoints` says that no
row is lost.
-/

namespace PointStream.Text

/-- Whether a code point is half of a surrogate pair. -/
def isHalf (n : Nat) : Bool :=
  0xD800 ≤ n && n < 0xE000

/-- The character before the one that stands for half of a pair. It is assigned to nothing. -/
def escapeMark : Char := '\ufdd0'

/-- The characters that write a code point. -/
def charsOfCodePoint (n : Nat) : List Char :=
  if isHalf n then [escapeMark, Char.ofNat (n + 0x800)]
  else if n = escapeMark.toNat then [escapeMark, escapeMark]
  else [Char.ofNat n]

/-- The string that writes a row of code points. -/
def ofCodePoints (ns : List Nat) : String :=
  String.ofList (ns.flatMap charsOfCodePoint)

/-- The code points that characters write. -/
def codePointsOfChars : List Char → List Nat
  | c :: d :: cs =>
    if c = escapeMark then
      if isHalf (d.toNat - 0x800) then (d.toNat - 0x800) :: codePointsOfChars cs
      else if d = escapeMark then c.toNat :: codePointsOfChars cs
      else c.toNat :: codePointsOfChars (d :: cs)
    else c.toNat :: codePointsOfChars (d :: cs)
  | [c] => [c.toNat]
  | [] => []

/-- The code points that a string writes. -/
def codePoints (s : String) : List Nat :=
  codePointsOfChars s.toList

/-- The string for a text that is given as plain characters, none of them an escape. -/
def ofPlain (s : String) : String :=
  ofCodePoints (s.toList.map Char.toNat)

theorem codePointsOfChars_cons {c : Char} (h : c ≠ escapeMark) (cs : List Char) :
    codePointsOfChars (c :: cs) = c.toNat :: codePointsOfChars cs := by
  cases cs <;> simp [codePointsOfChars, h]

theorem toNat_ofNat {n : Nat} (h : n < 0x110000) (half : isHalf n = false) :
    (Char.ofNat n).toNat = n := by
  simp only [isHalf, Bool.and_eq_false_iff, decide_eq_false_iff_not] at half
  have valid : n.isValidChar := by
    simp only [Nat.isValidChar]
    omega
  rw [Char.ofNat, dif_pos valid]
  rfl

theorem codePointsOfChars_append {n : Nat} (h : n < 0x110000) (cs : List Char) :
    codePointsOfChars (charsOfCodePoint n ++ cs) = n :: codePointsOfChars cs := by
  unfold charsOfCodePoint
  split
  · next half =>
    have inside := half
    simp only [isHalf, Bool.and_eq_true, decide_eq_true_eq] at inside
    have standIn : (Char.ofNat (n + 0x800)).toNat = n + 0x800 := by
      apply toNat_ofNat (by omega)
      simp only [isHalf, Bool.and_eq_false_iff, decide_eq_false_iff_not]
      omega
    simp [codePointsOfChars, standIn, half]
  · next half =>
    have single : isHalf n = false := by simpa using half
    split
    · next mark =>
      subst mark
      simp [codePointsOfChars, isHalf, escapeMark]
    · next mark =>
      have toNat := toNat_ofNat h single
      have other : Char.ofNat n ≠ escapeMark := fun e => mark (by rw [← e, toNat])
      simp [codePointsOfChars_cons other, toNat]

/-- A row of code points can be read off the string that writes it. -/
theorem codePoints_ofCodePoints {ns : List Nat} (h : ∀ n ∈ ns, n < 0x110000) :
    codePoints (ofCodePoints ns) = ns := by
  simp only [codePoints, ofCodePoints, String.toList_ofList]
  induction ns with
  | nil => rfl
  | cons n ns ih =>
    rw [List.flatMap_cons, codePointsOfChars_append (h n (List.mem_cons_self ..)),
      ih fun m hm => h m (List.mem_cons_of_mem _ hm)]

end PointStream.Text

import PointStream.Bounds.Reading
import PointStream.Proofs.Decimal.Reading

namespace PointStream

open Text Decimal Number

/-- Whether a double is the same as another one, or both are NaNs. -/
def Double.Recovers (x y : Double) : Prop :=
  if x.isNaN then y.isNaN = true else y = x

theorem Double.recovers_canonical (x : Double) : x.Recovers x.canonical := by
  unfold Recovers canonical
  split
  · rfl
  · rfl

def Triple.Recovers (p q : Triple Double) : Prop :=
  p.x.Recovers q.x ∧ p.y.Recovers q.y ∧ p.z.Recovers q.z

theorem Triple.recovers_canonical (p : Triple Double) : p.Recovers (p.map Double.canonical) :=
  ⟨p.x.recovers_canonical, p.y.recovers_canonical, p.z.recovers_canonical⟩

/-- A box in which the NaN without a sign stands in place of any other. -/
def Bounds.canonical (b : Bounds) : Bounds :=
  ⟨b.minimum.map Double.canonical, b.maximum.map Double.canonical⟩

namespace Bounds

theorem canonical_canonical (b : Bounds) : b.canonical.canonical = b.canonical := by
  simp [canonical, Triple.map]

theorem pair?_parts {first second : List Char} (hfirst : ∀ c ∈ first, isPartChar c = true)
    (hsecond : ∀ c ∈ second, isPartChar c = true) (hne : first ≠ []) (hne' : second ≠ [])
    (rest : List Char) :
    pair? (first ++ ',' :: (second ++ ']' :: rest)) = some ((first, second), rest) := by
  have hcomma := span_append hfirst (',' :: (second ++ ']' :: rest)) (fun c hc => by cases hc; rfl)
  have hbracket := span_append hsecond (']' :: rest) (fun c hc => by cases hc; rfl)
  simp [pair?, hcomma, hbracket, hne, hne']

theorem pairs_of_pair?_eq_some {cs : List Char} {p : List Char × List Char} {rest : List Char}
    (h : pair? cs = some (p, rest)) : pairs ('[' :: cs) = p :: pairs rest := by
  rw [pairs, if_pos rfl]
  split
  · next heq =>
    rw [h] at heq
    cases heq
    rfl
  · next heq =>
    rw [h] at heq
    cases heq

theorem pairs_cons_of_ne {c : Char} (h : c ≠ '[') (cs : List Char) :
    pairs (c :: cs) = pairs cs := by
  rw [pairs, if_neg h]

theorem pairs_axisChars (lo hi : Double) (rest : List Char) :
    pairs (axisChars lo hi ++ rest) =
      (shortestChars lo, ' ' :: shortestChars hi) :: pairs rest := by
  have hpart : ∀ c ∈ ' ' :: alphabet, isPartChar c = true :=
    List.forall_iff_forall_mem.mp (by decide)
  have hfirst : ∀ c ∈ shortestChars lo, isPartChar c = true := fun c hc =>
    hpart c (List.mem_cons_of_mem _ (mem_alphabet_of_mem_shortestChars hc))
  have hsecond : ∀ c ∈ ' ' :: shortestChars hi, isPartChar c = true := fun c hc =>
    hpart c (List.cons_subset_cons _ (fun _ => mem_alphabet_of_mem_shortestChars) hc)
  have hchars : axisChars lo hi ++ rest =
      '[' :: (shortestChars lo ++ ',' :: (' ' :: shortestChars hi ++ ']' :: rest)) := by
    simp [axisChars]
  rw [hchars]
  exact pairs_of_pair?_eq_some
    (pair?_parts hfirst hsecond (shortestChars_ne_nil lo) (List.cons_ne_nil _ _) rest)

theorem pairs_chars (b : Bounds) :
    pairs b.chars =
      [(shortestChars b.minimum.x, ' ' :: shortestChars b.maximum.x),
        (shortestChars b.minimum.y, ' ' :: shortestChars b.maximum.y),
        (shortestChars b.minimum.z, ' ' :: shortestChars b.maximum.z)] := by
  simp [chars, pairs_axisChars, pairs_cons_of_ne, pairs]

theorem readPart_shortestChars (x : Double) : readPart (shortestChars x) = .ok x.canonical := by
  have hblank : ∀ c ∈ alphabet, isBlank c = false :=
    List.forall_iff_forall_mem.mp (by decide)
  rw [readPart, dropWhile_eq_self fun c hc => hblank c (mem_alphabet_of_mem_shortestChars hc),
    readDouble?_shortestChars]

theorem readPart_blank (cs : List Char) : readPart (' ' :: cs) = readPart cs :=
  rfl

/-- The text of a box reads back to the box. -/
theorem read_text (b : Bounds) : read b.text = .ok b.canonical := by
  have hpair (lo hi : Double) :
      readPair (shortestChars lo, ' ' :: shortestChars hi) = .ok (lo.canonical, hi.canonical) := by
    simp only [readPair, readPart_blank, readPart_shortestChars]
    rfl
  rw [read, text, String.toList_ofList, pairs_chars]
  simp only [hpair]
  rfl

/-- Every box is read back from its text with each coordinate in its place and the same to the last
bit, but for a NaN, which is some NaN again. -/
theorem recovers_text (b : Bounds) :
    ∃ c, read b.text = .ok c ∧ b.minimum.Recovers c.minimum ∧ b.maximum.Recovers c.maximum :=
  ⟨b.canonical, read_text b, b.minimum.recovers_canonical, b.maximum.recovers_canonical⟩

end Bounds

end PointStream

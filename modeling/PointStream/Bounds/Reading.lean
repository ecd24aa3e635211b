import PointStream.Failure

namespace PointStream.Bounds

open Text Number

/-- Whether a character may be part of a number between brackets. -/
def isPartChar (c : Char) : Bool :=
  c != ',' && c != ']'

/-- The two parts behind an opening bracket, and what follows the closing one. -/
def pair? (cs : List Char) : Option ((List Char × List Char) × List Char) :=
  let first := cs.takeWhile isPartChar
  match cs.dropWhile isPartChar with
  | ',' :: rest =>
    let second := rest.takeWhile isPartChar
    match rest.dropWhile isPartChar with
    | ']' :: more =>
      if first.isEmpty || second.isEmpty then none else some ((first, second), more)
    | _ => none
  | _ => none

theorem length_lt_of_pair? {cs : List Char} {p : List Char × List Char} {rest : List Char}
    (h : pair? cs = some (p, rest)) : rest.length < cs.length := by
  have hdrop (xs : List Char) : (xs.dropWhile isPartChar).length ≤ xs.length :=
    (List.dropWhile_suffix isPartChar).length_le
  unfold pair? at h
  simp only at h
  split at h
  · next r hr =>
    split at h
    · next m hm =>
      split at h
      · cases h
      · have h1 := hdrop cs
        have h2 := hdrop r
        rw [hr] at h1
        rw [hm] at h2
        simp only [Option.some.injEq, Prod.mk.injEq] at h
        obtain ⟨_, rfl⟩ := h
        simp only [List.length_cons] at h1 h2
        omega
    · cases h
  · cases h

/-- The pairs between brackets in a text, from left to right and without overlap. A bracket that
opens no pair is passed over. -/
def pairs : List Char → List (List Char × List Char)
  | [] => []
  | c :: cs =>
    if c = '[' then
      match h : pair? cs with
      | some (p, rest) =>
        have := length_lt_of_pair? h
        p :: pairs rest
      | none => pairs cs
    else pairs cs
termination_by cs => cs.length
decreasing_by all_goals simp_all <;> omega

/-- The number that one part of a pair writes. -/
def readPart (cs : List Char) : Except Failure Double :=
  match readDouble? (cs.dropWhile isBlank) with
  | some x => .ok x
  | none => .error (.number .unreadable)

def readPair (p : List Char × List Char) : Except Failure (Double × Double) := do
  let lo ← readPart p.1
  let hi ← readPart p.2
  pure (lo, hi)

def read (s : String) : Except Failure Bounds :=
  match pairs s.toList with
  | [x, y] => do
    let x ← readPair x
    let y ← readPair y
    pure ⟨⟨x.1, y.1, 0⟩, ⟨x.2, y.2, 0⟩⟩
  | [x, y, z] => do
    let x ← readPair x
    let y ← readPair y
    let z ← readPair z
    pure ⟨⟨x.1, y.1, z.1⟩, ⟨x.2, y.2, z.2⟩⟩
  | _ => .error (.boundsText s)

/-- The box with up to six given coordinates, those of the minimum corner first; the others are
zero. -/
def ofCoordinates (xs : List Double) : Except Failure Bounds :=
  if 6 < xs.length then .error .arguments
  else
    let coordinate (i : Nat) : Double := xs.getD i 0
    .ok ⟨⟨coordinate 0, coordinate 1, coordinate 2⟩, ⟨coordinate 3, coordinate 4, coordinate 5⟩⟩

/-- The box that an option value gives: a box itself, or one written by the text of the value. -/
def ofValue : Value → Except Failure Bounds
  | .bounds b => .ok b
  | v => read v.toText

/-- The coordinate of a corner along an axis, which may count from the end. -/
def along (corner : Point) (axis : Int) : Except Failure Double :=
  match (placeOfIndex? 3 axis).bind fun place => corner.toList[place]? with
  | some x => .ok x
  | none => .error .noSuchIndex

/-- Whether two boxes have equal coordinates; a NaN equals nothing. -/
def sameAs (a b : Bounds) : Bool :=
  (a.minimum.toList ++ a.maximum.toList).zip (b.minimum.toList ++ b.maximum.toList)
    |>.all fun (x, y) => x.sameNumber y

end PointStream.Bounds

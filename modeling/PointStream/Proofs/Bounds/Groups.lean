import PointStream.Proofs.Bounds.Reading

namespace PointStream

open Text Number

namespace Text

/-- A row of white space, which may be empty. -/
structure Spaces where
  chars : List Char
  white : ∀ c ∈ chars, isWhiteSpace c = true

def Spaces.none : Spaces :=
  ⟨[], nofun⟩

def Spaces.single : Spaces :=
  ⟨[' '], List.forall_mem_singleton.mpr rfl⟩

theorem strip_spaces (before behind : Spaces) (cs : List Char) :
    strip isWhiteSpace (before.chars ++ cs ++ behind.chars) = strip isWhiteSpace cs := by
  have hbehind : ∀ c ∈ behind.chars.reverse, isWhiteSpace c = true := by
    simpa using behind.white
  unfold strip
  rw [List.append_assoc, List.dropWhile_append_of_pos before.white, List.dropWhile_append]
  split
  · next hempty =>
    rw [List.isEmpty_iff.mp hempty, List.dropWhile_eq_nil_iff.mpr behind.white]
  · rw [List.reverse_append, List.dropWhile_append_of_pos hbehind]

theorem strip_cons {drop : Char → Bool} {c : Char} (h : drop c = false) (cs : List Char) :
    ∃ kept, strip drop (c :: cs) = c :: kept := by
  unfold strip
  rw [List.dropWhile_cons_of_neg (Bool.eq_false_iff.mp h), List.reverse_cons, List.dropWhile_append]
  split
  · rw [List.dropWhile_cons_of_neg (Bool.eq_false_iff.mp h)]
    exact ⟨[], rfl⟩
  · exact ⟨_, List.reverse_append⟩

end Text

namespace Number

theorem readDouble?_spaces (before behind : Spaces) (cs : List Char) :
    readDouble? (before.chars ++ cs ++ behind.chars) = readDouble? cs := by
  unfold readDouble? plainForm?
  rw [strip_spaces]

theorem readDouble?_behind_spaces (before : Spaces) (cs : List Char) :
    readDouble? (before.chars ++ cs) = readDouble? cs := by
  have hspaces := readDouble?_spaces before .none cs
  rwa [show Spaces.none.chars = [] from rfl, List.append_nil] at hspaces

theorem readDouble?_separator {c : Char} (hlow : 0x1C ≤ c.toNat) (hhigh : c.toNat ≤ 0x1F)
    (cs : List Char) : readDouble? (c :: cs) = none := by
  have hseparators : ∀ n < 4, isWhiteSpace (Char.ofNat (0x1C + n)) = false ∧
      plainDigit (Char.ofNat (0x1C + n)) = Char.ofNat (0x1C + n) ∧
      Char.ofNat (0x1C + n) ∉ ['_', '-', '+', '.'] ∧ isPlainDigit (Char.ofNat (0x1C + n)) = false ∧
      (Char.ofNat (0x1C + n)).toLower ∉ ['i', 'n'] := by decide
  obtain ⟨n, hn⟩ := Nat.exists_eq_add_of_le hlow
  obtain ⟨hwhite, hsame, hmark, hdigit, hletter⟩ := hseparators n (by omega)
  rw [← hn, Char.ofNat_toNat] at hwhite hsame hmark hdigit hletter
  obtain ⟨kept, hkept⟩ := strip_cons hwhite cs
  simp only [List.mem_cons, List.not_mem_nil, or_false, not_or] at hmark hletter
  rw [readDouble?, plainForm?, hkept, List.map_cons, hsame, joinDigits, if_neg hmark.1]
  cases joinDigits (isPlainDigit c) (kept.map plainDigit) with
  | none => rfl
  | some plain =>
      have hnumeral : readNumeral? (c :: plain) = none := by
        simp [readNumeral?, hdigit, hmark]
      simp [splitSign, readCode?, hmark, hletter, hnumeral]

theorem dropWhile_isBlank {cs : List Char} {x : Double} (h : readDouble? cs = some x) :
    readDouble? (cs.dropWhile isBlank) = some x := by
  have hsplit := List.takeWhile_append_dropWhile (p := isWhiteSpace) (l := cs)
  have hwhite : ∀ c ∈ cs.takeWhile isWhiteSpace, isWhiteSpace c = true :=
    fun c hc => List.mem_takeWhile_imp hc
  have hblank : ∀ c ∈ cs.takeWhile isWhiteSpace, isBlank c = true := by
    intro c hc
    rw [isBlank, hwhite c hc, Bool.true_or]
  have hrest : readDouble? (cs.dropWhile isWhiteSpace) = some x := by
    have hspaces := readDouble?_behind_spaces ⟨_, hwhite⟩ (cs.dropWhile isWhiteSpace)
    rw [hsplit, h] at hspaces
    exact hspaces.symm
  -- The blanks that are no white space are the separators, and the number would begin with one.
  have hsame : (cs.dropWhile isWhiteSpace).dropWhile isBlank = cs.dropWhile isWhiteSpace := by
    have hhead := List.head?_dropWhile_not isWhiteSpace cs
    cases hcs : cs.dropWhile isWhiteSpace with
    | nil => rfl
    | cons c rest =>
        rw [hcs] at hhead hrest
        have hnot : isBlank c = false := by
          by_contra hblank
          simp only [isBlank, show isWhiteSpace c = false from hhead, Bool.false_or,
            Bool.not_eq_false, Bool.and_eq_true, decide_eq_true_eq] at hblank
          rw [readDouble?_separator hblank.1 hblank.2] at hrest
          cases hrest
        exact List.dropWhile_cons_of_neg (Bool.eq_false_iff.mp hnot)
  rw [← hsplit, List.dropWhile_append_of_pos hblank, hsame]
  exact hrest

end Number

namespace Bounds

/-- Whether a character neither separates entries nor opens or closes a group. -/
def IsPlain (c : Char) : Prop :=
  c ≠ ',' ∧ c ≠ '[' ∧ c ≠ ']'

instance (c : Char) : Decidable (IsPlain c) :=
  inferInstanceAs (Decidable (c ≠ ',' ∧ c ≠ '[' ∧ c ≠ ']'))

/-- The text of a number with spaces around it. -/
structure Entry where
  before : Spaces
  number : List Char
  behind : Spaces
  value : Double
  reads : readDouble? number = some value
  plain : ∀ c ∈ number, IsPlain c

/-- Entries between brackets. The spaces behind the opening bracket stand also where there are no
entries. -/
structure Group where
  before : Spaces
  opening : Spaces
  entries : List Entry
  behind : Spaces

/-- Groups between parentheses. -/
structure Listing where
  before : Spaces
  opening : Spaces
  groups : List Group
  behind : Spaces

def Entry.chars (e : Entry) : List Char :=
  e.before.chars ++ e.number ++ e.behind.chars

def Group.inside (g : Group) : List Char :=
  g.opening.chars ++ [','].intercalate (g.entries.map Entry.chars)

def Group.chars (g : Group) : List Char :=
  g.before.chars ++ '[' :: (g.inside ++ ']' :: g.behind.chars)

/-- The ends of an axis that a group of two numbers gives. -/
def Group.ends? (g : Group) : Option (Double × Double) :=
  match g.entries with
  | [lo, hi] => some (lo.value, hi.value)
  | _ => none

def Listing.text (w : Listing) : String :=
  String.ofList (w.before.chars ++
    '(' :: (w.opening.chars ++ [','].intercalate (w.groups.map Group.chars)) ++ ')' :: w.behind.chars)

/-- The box with the ends of two or three axes. -/
def ofEnds? : List (Double × Double) → Option Bounds
  | [x, y] => some ⟨⟨x.1, y.1, 0⟩, ⟨x.2, y.2, 0⟩⟩
  | [x, y, z] => some ⟨⟨x.1, y.1, z.1⟩, ⟨x.2, y.2, z.2⟩⟩
  | _ => none

/-- Whether a text is read to a box, or refused if there is none. -/
def ReadsTo (s : String) (box : Option Bounds) : Prop :=
  read s = match box with
    | some b => .ok b
    | none => .error (.boundsText s)

theorem ReadsTo.unique_iff {s : String} {box box' : Option Bounds} (h : ReadsTo s box) :
    ReadsTo s box' ↔ box = box' := by
  unfold ReadsTo at h ⊢
  rw [h]
  cases box <;> cases box' <;> simp

theorem ofEnds?_isSome_iff {ends : List (Double × Double)} :
    (ofEnds? ends).isSome = true ↔ ends.length = 2 ∨ ends.length = 3 := by
  match ends with
  | [] | [_] | [_, _] | [_, _, _] | _ :: _ :: _ :: _ :: _ => simp [ofEnds?]

theorem readPart_of_readDouble? {cs : List Char} {x : Double} (h : readDouble? cs = some x) :
    readPart cs = .ok x := by
  rw [readPart, dropWhile_isBlank h]

theorem readPair_of_readDouble? {lo hi : List Char} {x y : Double} (hlo : readDouble? lo = some x)
    (hhi : readDouble? hi = some y) : readPair (lo, hi) = .ok (x, y) := by
  simp only [readPair, readPart_of_readDouble? hlo, readPart_of_readDouble? hhi]
  rfl

theorem readsTo_of_forall₂ {s : String} {ends : List (Double × Double)}
    (h : List.Forall₂ (fun p e => readPair p = .ok e) (pairs s.toList) ends) :
    ReadsTo s (ofEnds? ends) := by
  unfold ReadsTo read
  match pairs s.toList, ends, h with
  | _, _, .nil => rfl
  | _, _, .cons _ .nil => rfl
  | _, _, .cons hx (.cons hy .nil) =>
      simp only [hx, hy]
      rfl
  | _, _, .cons hx (.cons hy (.cons hz .nil)) =>
      simp only [hx, hy, hz]
      rfl
  | _, _, .cons _ (.cons _ (.cons _ (.cons _ _))) => rfl

theorem isPlain_of_isWhiteSpace {c : Char} (h : isWhiteSpace c = true) : IsPlain c := by
  refine ⟨?_, ?_, ?_⟩
  all_goals
    rintro rfl
    cases h

theorem IsPlain.isPartChar {c : Char} (h : IsPlain c) : isPartChar c = true := by
  simp [Bounds.isPartChar, h.1, h.2.2]

theorem pair?_alone {part : List Char} (h : ∀ c ∈ part, isPartChar c = true) (rest : List Char) :
    pair? (part ++ ']' :: rest) = none := by
  have hspan := span_append h (']' :: rest) (fun c hc => by cases hc; rfl)
  simp [pair?, hspan]

theorem pair?_more {first second : List Char} (hfirst : ∀ c ∈ first, isPartChar c = true)
    (hsecond : ∀ c ∈ second, isPartChar c = true) (rest : List Char) :
    pair? (first ++ ',' :: (second ++ ',' :: rest)) = none := by
  have hcomma := span_append hfirst (',' :: (second ++ ',' :: rest)) (fun c hc => by cases hc; rfl)
  have hcomma' := span_append hsecond (',' :: rest) (fun c hc => by cases hc; rfl)
  simp [pair?, hcomma, hcomma']

theorem pairs_of_pair?_eq_none {cs : List Char} (h : pair? cs = none) :
    pairs ('[' :: cs) = pairs cs := by
  rw [pairs, if_pos rfl]
  split
  · next heq =>
    rw [h] at heq
    cases heq
  · rfl

theorem pairs_append {cs : List Char} (h : ∀ c ∈ cs, c ≠ '[') (rest : List Char) :
    pairs (cs ++ rest) = pairs rest := by
  induction cs with
  | nil => rfl
  | cons c cs ih =>
      obtain ⟨hc, hcs⟩ := List.forall_mem_cons.mp h
      rw [List.cons_append, pairs_cons_of_ne hc]
      exact ih hcs

theorem pairs_spaces (spaces : Spaces) (rest : List Char) :
    pairs (spaces.chars ++ rest) = pairs rest :=
  pairs_append (fun c hc => (isPlain_of_isWhiteSpace (spaces.white c hc)).2.1) rest

namespace Entry

variable (e : Entry)

theorem isPlain_of_mem : ∀ c ∈ e.chars, IsPlain c := by
  intro c hc
  rcases List.mem_append.mp hc with hc | hc
  · rcases List.mem_append.mp hc with hc | hc
    · exact isPlain_of_isWhiteSpace (e.before.white c hc)
    · exact e.plain c hc
  · exact isPlain_of_isWhiteSpace (e.behind.white c hc)

theorem readDouble?_chars : readDouble? e.chars = some e.value := by
  rw [chars, readDouble?_spaces, e.reads]

theorem chars_ne_nil : e.chars ≠ [] := by
  intro h
  have hreads := e.readDouble?_chars
  rw [h] at hreads
  cases hreads

end Entry

namespace Group

variable (g : Group)

theorem ne_bracket_of_mem_inside : ∀ c ∈ g.inside, c ≠ '[' := by
  intro c hc
  rcases List.mem_append.mp hc with hc | hc
  · exact (isPlain_of_isWhiteSpace (g.opening.white c hc)).2.1
  · refine forall_mem_intercalate (P := (· ≠ '[')) (List.forall_mem_singleton.mpr (by decide)) ?_
      c hc
    simp only [List.forall_mem_map]
    exact fun e _ c hc => (e.isPlain_of_mem c hc).2.1

theorem pair?_inside (rest : List Char) :
    match g.ends? with
    | some e => ∃ p, readPair p = .ok e ∧ pair? (g.inside ++ ']' :: rest) = some (p, rest)
    | none => pair? (g.inside ++ ']' :: rest) = none := by
  have hopening : ∀ c ∈ g.opening.chars, isPartChar c = true :=
    fun c hc => (isPlain_of_isWhiteSpace (g.opening.white c hc)).isPartChar
  have hentry (e : Entry) : ∀ c ∈ e.chars, isPartChar c = true :=
    fun c hc => (e.isPlain_of_mem c hc).isPartChar
  have hfirst (e : Entry) : ∀ c ∈ g.opening.chars ++ e.chars, isPartChar c = true :=
    List.forall_mem_append.mpr ⟨hopening, hentry e⟩
  unfold ends? inside
  match g.entries with
  | [] =>
      rw [List.map_nil, List.intercalate_nil, List.append_nil]
      exact pair?_alone hopening rest
  | [e] =>
      rw [List.map_singleton, List.intercalate_singleton]
      exact pair?_alone (hfirst e) rest
  | [lo, hi] =>
      have hreads : readDouble? (g.opening.chars ++ lo.chars) = some lo.value := by
        rw [readDouble?_behind_spaces, lo.readDouble?_chars]
      have hne : g.opening.chars ++ lo.chars ≠ [] :=
        List.append_ne_nil_of_right_ne_nil _ lo.chars_ne_nil
      refine ⟨_, readPair_of_readDouble? hreads hi.readDouble?_chars, ?_⟩
      rw [List.map_cons, List.map_singleton, List.intercalate_cons_cons, List.intercalate_singleton]
      simpa using pair?_parts (hfirst lo) (hentry hi) hne hi.chars_ne_nil rest
  | lo :: hi :: next :: more =>
      simp only [List.map_cons, List.intercalate_cons_cons]
      simpa using pair?_more (hfirst lo) (hentry hi) _

/-- Of the groups in a text, those of two entries are found. -/
theorem pairs_chars (rest : List Char) :
    match g.ends? with
    | some e => ∃ p, readPair p = .ok e ∧ pairs (g.chars ++ rest) = p :: pairs rest
    | none => pairs (g.chars ++ rest) = pairs rest := by
  have hgroup : pairs (g.chars ++ rest) =
      pairs ('[' :: (g.inside ++ ']' :: (g.behind.chars ++ rest))) := by
    rw [← pairs_spaces g.before ('[' :: _)]
    simp [chars]
  have hpair := g.pair?_inside (g.behind.chars ++ rest)
  rw [hgroup]
  split at hpair
  · obtain ⟨p, hreads, hpair⟩ := hpair
    exact ⟨p, hreads, by rw [pairs_of_pair?_eq_some hpair, pairs_spaces]⟩
  · rw [pairs_of_pair?_eq_none hpair, pairs_append g.ne_bracket_of_mem_inside,
      pairs_cons_of_ne (by decide), pairs_spaces]

end Group

theorem forall₂_pairs_groups (groups : List Group) {rest : List Char} (hrest : pairs rest = []) :
    List.Forall₂ (fun p e => readPair p = .ok e)
      (pairs ([','].intercalate (groups.map Group.chars) ++ rest))
      (groups.filterMap Group.ends?) := by
  induction groups with
  | nil =>
      rw [List.map_nil, List.intercalate_nil, List.nil_append, hrest]
      exact .nil
  | cons g groups ih =>
      -- What follows the first group begins with a comma if there are others, which opens no pair.
      have hbehind : ∃ more, [','].intercalate ((g :: groups).map Group.chars) ++ rest =
          g.chars ++ more ∧
            pairs more = pairs ([','].intercalate (groups.map Group.chars) ++ rest) := by
        cases groups with
        | nil => exact ⟨rest, by simp, by simp⟩
        | cons next groups =>
            refine ⟨',' :: ([','].intercalate ((next :: groups).map Group.chars) ++ rest), ?_, ?_⟩
            · simp [List.intercalate_cons_cons]
            · exact pairs_cons_of_ne (by decide) _
      obtain ⟨more, hchars, hmore⟩ := hbehind
      have hgroup := g.pairs_chars more
      rw [hchars, List.filterMap_cons]
      split at hgroup
      · next e he =>
        obtain ⟨p, hreads, hpairs⟩ := hgroup
        rw [hpairs, he, hmore]
        exact .cons hreads ih
      · next he =>
        rw [hgroup, he, hmore]
        exact ih

namespace Listing

variable (w : Listing)

theorem readsTo_filterMap : ReadsTo w.text (ofEnds? (w.groups.filterMap Group.ends?)) := by
  apply readsTo_of_forall₂
  have hend : pairs (')' :: w.behind.chars) = [] := by
    rw [pairs_cons_of_ne (by decide), ← List.append_nil w.behind.chars, pairs_spaces, pairs]
  have hpairs : pairs w.text.toList =
      pairs ([','].intercalate (w.groups.map Group.chars) ++ ')' :: w.behind.chars) := by
    rw [text, String.toList_ofList, List.append_assoc, pairs_spaces, List.cons_append,
      pairs_cons_of_ne (by decide), List.append_assoc, pairs_spaces]
  rw [hpairs]
  exact forall₂_pairs_groups w.groups hend

/-- A text is read as if it listed only its groups of two numbers. It is read as what it lists, a box
of two or three groups of two numbers or else none, if and only if there are no other groups or too
few or too many of these. -/
theorem reads_groups_of_two :
    ReadsTo w.text (ofEnds? (w.groups.filterMap Group.ends?)) ∧
      (ReadsTo w.text ((w.groups.mapM Group.ends?).bind ofEnds?) ↔
        (∀ g ∈ w.groups, g.ends?.isSome = true) ∨
          ¬((w.groups.filterMap Group.ends?).length = 2 ∨
            (w.groups.filterMap Group.ends?).length = 3)) := by
  have hreads := w.readsTo_filterMap
  refine ⟨hreads, ?_⟩
  rw [hreads.unique_iff, mapM_eq_filterMap, ← ofEnds?_isSome_iff]
  split
  · next hall => exact ⟨fun _ => .inl hall, fun _ => rfl⟩
  · next hall =>
    rw [or_iff_right hall]
    cases ofEnds? (w.groups.filterMap Group.ends?) with
    | none => simp
    | some b => simp

end Listing

/-- A single digit as an entry. -/
def Entry.ofDigit (before : Spaces) (d : Fin 10) : Entry where
  before
  number := [digitChar d]
  behind := .none
  value := Double.ofNat d
  reads :=
    (by decide +kernel : ∀ d : Fin 10, readDouble? [digitChar d] = some (Double.ofNat d)) d
  plain c hc :=
    List.mem_singleton.mp hc ▸ (by decide : ∀ d : Fin 10, IsPlain (digitChar d)) d

/-- A list with a space before each text but the first. -/
def spaced {α β : Type} (make : Spaces → α → β) : List α → List β
  | [] => []
  | x :: xs => make .none x :: xs.map (make .single)

def Listing.ofDigits (rows : List (List (Fin 10))) : Listing :=
  ⟨.none, .none, spaced (fun before ds => ⟨before, .none, spaced Entry.ofDigit ds, .none⟩) rows, .none⟩

/-- A group of three numbers behind two groups of two is not seen. -/
theorem not_readsTo_of_dropped_group :
    ¬∀ w : Listing, ReadsTo w.text ((w.groups.mapM Group.ends?).bind ofEnds?) := by
  intro hreads
  let w := Listing.ofDigits [[1, 2], [3, 4], [5, 6, 7]]
  have hsame := w.readsTo_filterMap.unique_iff.mp (hreads w)
  exact absurd hsame (by decide +kernel)

example : (Listing.ofDigits [[1, 2], [3, 4], [5, 6, 7]]).text = "([1, 2], [3, 4], [5, 6, 7])" := by
  decide +kernel

end Bounds

end PointStream

import PointStream.Proofs.Cursor.Position

/-!
# Indices of cursors

Of all that was done to a cursor over a chain nothing is left but its index, be it a whole number or
not: every read and every skip leads to the cursor that stands at some index, with all that it draws
from at the same one. Two cursors over one stage at one index are the same.
-/

namespace PointStream

namespace Stage

/-- The cursor over a chain behind a generator that stands at an index, as do all that it draws
from. -/
def cursorAt (g : Generator) (a : Amount) : Stage → Cursor
  | filter n o k previous => .reprojected (filter n o k previous) a (previous.cursorAt g a)
  | s => .source ⟨s, g, a⟩

end Stage

namespace SourceCursor

variable {c c' : SourceCursor}

theorem advance_eq {k : Number} (h : c.advance k = .ok c') :
    ∃ a, c.index.add k = .ok a ∧ c' = { c with index := a } := by
  unfold advance at h
  split at h
  · cases h
  · next a ha => exact ⟨a, ha, (Except.ok.inj h).symm⟩

theorem pull_moves (c : SourceCursor) (b : Buffer) : ∃ a, (c.pull b).2.1 = { c with index := a } := by
  unfold pull
  split
  · exact ⟨c.index, rfl⟩
  · split
    · exact ⟨c.index, rfl⟩
    · next hadvance =>
      obtain ⟨a, _, rfl⟩ := advance_eq hadvance
      exact ⟨a, rfl⟩

theorem skip_moves (c : SourceCursor) (count : Number) :
    ∃ result a, c.skip count = (result, { c with index := a }) ∧
      match result with
      | .ok skipped => c.index.add skipped = .ok a
      | .error _ => a = c.index := by
  unfold skip
  split
  · exact ⟨_, c.index, rfl, rfl⟩
  · split
    · exact ⟨_, c.index, rfl, rfl⟩
    · dsimp only
      split
      · exact ⟨_, c.index, rfl, rfl⟩
      · next hadvance =>
        obtain ⟨a, ha, rfl⟩ := advance_eq hadvance
        exact ⟨_, a, rfl, ha⟩

end SourceCursor

/-- A cursor that was made over a stage, and then was read and skipped. -/
inductive Cursor.WalksOver (s : Stage) : Cursor → Prop
  | made {statuses : Statuses} {c : Cursor} (h : s.cursor statuses = .ok c) : WalksOver s c
  | read {c : Cursor} (h : WalksOver s c) (statuses : Statuses) (b : Buffer) :
    WalksOver s (c.read statuses b).2.1
  | skip {c : Cursor} (h : WalksOver s c) (count : Number) : WalksOver s (c.skip count).2

variable {g : Generator} {s previous : Stage} {statuses : Statuses} {a : Amount} {c c' : Cursor}
  {n : Nat} {o : Options} {r : Reprojection}

namespace Stage

@[simp]
theorem index_cursorAt (s : Stage) : (s.cursorAt g a).index = a := by
  cases s <;> rfl

theorem cursor_reprojection (h : (filter n o (.reprojection r) previous).cursor statuses = .ok c) :
    ∃ inner, previous.cursor statuses = .ok inner ∧
      c = .reprojected (filter n o (.reprojection r) previous) (.whole 0) inner := by
  unfold cursor at h
  cases hcheck : (filter n o (.reprojection r) previous).checkVisit .sequential statuses with
  | error e =>
      rw [hcheck] at h
      cases h
  | ok =>
      rw [hcheck] at h
      cases hinner : previous.cursor statuses with
      | error e =>
          simp only [hinner] at h
          cases h
      | ok inner =>
          simp only [hinner] at h
          cases h
          exact ⟨inner, rfl, rfl⟩

theorem cursor_eq (hs : s.generator? = some g) (h : s.cursor statuses = .ok c) :
    c = s.cursorAt g (.whole 0) := by
  induction s, hs using generator?_induction generalizing c with
  | source n o =>
      unfold cursor at h
      cases hcheck : (source n o (.generated g)).checkVisit .sequential statuses with
      | error e =>
          rw [hcheck] at h
          cases h
      | ok =>
          rw [hcheck] at h
          cases h
          rfl
  | reprojection n o r previous hprevious ih =>
      obtain ⟨inner, hinner, rfl⟩ := cursor_reprojection h
      rw [ih hinner]
      rfl

theorem read_cursorAt (hs : s.generator? = some g) (a : Amount) (statuses : Statuses) (b : Buffer) :
    ∃ a', ((s.cursorAt g a).read statuses b).2.1 = s.cursorAt g a' := by
  induction s, hs using generator?_induction with
  | source n o =>
      obtain ⟨a', hmoves⟩ := SourceCursor.pull_moves ⟨source n o (.generated g), g, a⟩ b
      exact ⟨a', congrArg Cursor.source hmoves⟩
  | reprojection n o r previous hprevious ih =>
      obtain ⟨a', hmoves⟩ := ih
      refine ⟨a', ?_⟩
      simp only [cursorAt, Cursor.read]
      rcases hread : (previous.cursorAt g a).read statuses b with ⟨result, inner, filled⟩
      rw [hread] at hmoves
      obtain rfl : inner = previous.cursorAt g a' := hmoves
      rw [index_cursorAt]
      split
      · rfl
      · split <;> rfl

theorem skip_cursorAt (hs : s.generator? = some g) (a : Amount) (count : Number) :
    ∃ result a', (s.cursorAt g a).skip count = (result, s.cursorAt g a') ∧
      match result with
      | .ok skipped => a.add skipped = .ok a'
      | .error _ => a' = a := by
  induction s, hs using generator?_induction with
  | source n o =>
      obtain ⟨result, a', hskip, hmoves⟩ :=
        SourceCursor.skip_moves ⟨source n o (.generated g), g, a⟩ count
      refine ⟨result, a', ?_, hmoves⟩
      simp only [cursorAt, Cursor.skip, hskip]
  | reprojection n o r previous hprevious ih =>
      obtain ⟨result, a', hskip, hmoves⟩ := ih
      simp only [cursorAt, Cursor.skip]
      split
      · exact ⟨_, a, rfl, rfl⟩
      · rw [hskip]
        cases result with
        | error e =>
            obtain rfl : a' = a := hmoves
            exact ⟨_, a', rfl, rfl⟩
        | ok skipped =>
            -- The filter adds to its index just what the stage before has added to its own.
            have hadd : a.add skipped = .ok a' := hmoves
            simp only [hadd]
            exact ⟨_, a', rfl, hadd⟩

theorem over_cursorAt (hs : s.generator? = some g) (i : Nat) :
    Cursor.Over g i s (s.cursorAt g (.whole i)) := by
  induction s, hs using generator?_induction with
  | source n o => exact .source n o
  | reprojection n o r previous hprevious ih => exact .reprojected n o r ih

end Stage

namespace Cursor.WalksOver

/-- Nothing is left of what was done to a cursor but its index. -/
theorem eq_cursorAt (hs : s.generator? = some g) (h : c.WalksOver s) :
    c = s.cursorAt g c.index := by
  induction h with
  | made h =>
      rw [Stage.cursor_eq hs h, Stage.index_cursorAt]
  | @read c _ statuses b ih =>
      obtain ⟨a, hmoves⟩ := Stage.read_cursorAt hs c.index statuses b
      rw [← ih] at hmoves
      rw [hmoves, Stage.index_cursorAt]
  | @skip c _ count ih =>
      obtain ⟨result, a, hskip, _⟩ := Stage.skip_cursorAt hs c.index count
      rw [← ih] at hskip
      rw [hskip, Stage.index_cursorAt]

theorem eq_of_index_eq (hs : s.generator? = some g) (h : c.WalksOver s) (h' : c'.WalksOver s)
    (hindex : c.index = c'.index) : c = c' := by
  rw [h.eq_cursorAt hs, h'.eq_cursorAt hs, hindex]

theorem exists_reprojected (h : c.WalksOver (.filter n o (.reprojection r) previous)) :
    ∃ index inner, c = .reprojected (.filter n o (.reprojection r) previous) index inner ∧
      inner.WalksOver previous := by
  induction h with
  | made h =>
      obtain ⟨inner, hinner, rfl⟩ := Stage.cursor_reprojection h
      exact ⟨_, inner, rfl, .made hinner⟩
  | read _ statuses b ih =>
      obtain ⟨index, inner, rfl, hinner⟩ := ih
      refine ⟨(inner.read statuses b).2.1.index, (inner.read statuses b).2.1, ?_,
        hinner.read statuses b⟩
      simp only [Cursor.read]
      split
      · rfl
      · split <;> rfl
  | skip _ count ih =>
      obtain ⟨index, inner, rfl, hinner⟩ := ih
      have hskipped := hinner.skip count
      simp only [Cursor.skip]
      split
      · exact ⟨index, inner, rfl, hinner⟩
      · split
        · next hskip =>
          rw [hskip] at hskipped
          exact ⟨index, _, rfl, hskipped⟩
        · next hskip =>
          rw [hskip] at hskipped
          split
          · exact ⟨index, _, rfl, hskipped⟩
          · exact ⟨_, _, rfl, hskipped⟩

theorem exists_inner (hs : previous.generator? = some g)
    (h : c.WalksOver (.filter n o (.reprojection r) previous)) :
    ∃ inner, c = .reprojected (.filter n o (.reprojection r) previous) inner.index inner ∧
      inner.WalksOver previous := by
  have hchain : (Stage.filter n o (.reprojection r) previous).generator? = some g := hs
  have hcursor := h.eq_cursorAt hchain
  obtain ⟨index, inner, rfl, hinner⟩ := h.exists_reprojected
  obtain rfl : inner = previous.cursorAt g index := (Cursor.reprojected.inj hcursor).2.2
  refine ⟨previous.cursorAt g index, ?_, hinner⟩
  rw [Stage.index_cursorAt]

end Cursor.WalksOver

end PointStream

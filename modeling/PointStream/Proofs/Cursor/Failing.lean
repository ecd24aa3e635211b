import PointStream.Proofs.Cursor.Index
import PointStream.Proofs.Generator.Outcome
import PointStream.Proofs.Stage.InPlace

namespace PointStream

namespace SourceCursor

variable {c c' : SourceCursor} {b left : Buffer} {e : Failure} {n : Amount}

theorem ofTransform_pull (h : c.pull b = (.error e, c', left)) : e.ofTransform = false := by
  unfold pull at h
  split at h
  · next hread =>
    cases h
    exact Generator.ofTransform_readAt hread
  · split at h
    · next hadvance =>
      cases h
      unfold advance at hadvance
      split at hadvance
      · cases hadvance
        rfl
      · cases hadvance
    · cases h

theorem pull_keeps (h : c.pull b = (.ok n, c', left)) :
    left.layout = b.layout ∧ left.count = min n.wholePart left.capacity := by
  unfold pull at h
  split at h
  · cases h
  · next hread =>
    split at h
    · cases h
    · cases h
      have hlayout := Generator.layout_readAt hread
      exact ⟨hlayout, rfl⟩

end SourceCursor

variable {g : Generator} {s f previous : Stage} {statuses : Statuses} {a : Amount} {c c' : Cursor}
  {b left : Buffer} {n : Nat} {o : Options} {r : Reprojection} {e : Failure}

namespace Stage

/-- The read over a stage at an index gives points and leaves a buffer: there is a cursor at the
index, and every such cursor does so. -/
def Leaves (s : Stage) (statuses : Statuses) (a : Amount) (b left : Buffer) : Prop :=
  (∃ u : Cursor, u.WalksOver s ∧ u.index = a) ∧
    ∀ u : Cursor, u.WalksOver s → u.index = a → ∃ n u', u.read statuses b = (.ok n, u', left)

/-- A filter fails at an index: the read over the stage before it gives points, but the filter
cannot transform what this read leaves. -/
def FailsAt (f : Stage) (statuses : Statuses) (a : Amount) (b : Buffer) : Prop :=
  ∃ previous left e, f.previous? = some previous ∧ previous.Leaves statuses a b left ∧
    f.reprojectBuffer statuses left = .error e

end Stage

namespace Cursor

theorem read_keeps {n : Amount} (h : c.read statuses b = (.ok n, c', left)) :
    left.layout = b.layout ∧ left.count = min n.wholePart left.capacity := by
  induction c generalizing n c' left with
  | source c =>
      unfold read at h
      rcases hpull : c.pull b with ⟨result, moved, filled⟩
      rw [hpull] at h
      cases h
      exact SourceCursor.pull_keeps hpull
  | reprojected s index inner ih =>
      simp only [read] at h
      rcases hread : inner.read statuses b with ⟨result, moved, filled⟩
      rw [hread] at h
      cases result with
      | error e => cases h
      | ok k =>
          cases hreproject : s.reprojectBuffer statuses filled with
          | error e =>
              simp only [hreproject] at h
              cases h
          | ok b' =>
              simp only [hreproject] at h
              cases h
              have hlayout := (Stage.reprojectBuffer_keeps hreproject).1
              exact ⟨hlayout.trans (ih hread).1, rfl⟩

theorem read_reprojected_eq_ok {k : Amount} {index : Amount}
    (h : (reprojected s index c).read statuses b = (.ok k, c', left)) :
    ∃ inner filled, c.read statuses b = (.ok k, inner, filled) ∧
      s.reprojectBuffer statuses filled = .ok left := by
  simp only [read] at h
  rcases hread : c.read statuses b with ⟨result, moved, filled⟩
  rw [hread] at h
  cases result with
  | error e => cases h
  | ok k =>
      cases hreproject : s.reprojectBuffer statuses filled with
      | error e =>
          simp only [hreproject] at h
          cases h
      | ok b' =>
          simp only [hreproject] at h
          cases h
          obtain ⟨_, hcapacity, hcount⟩ := Stage.reprojectBuffer_keeps hreproject
          have hsame : b'.count = min k.wholePart b'.capacity := by
            rw [hcount, hcapacity]
            exact (read_keeps hread).2
          exact ⟨moved, filled, rfl, hreproject.trans (by rw [Buffer.holding_eq_self hsame])⟩

theorem read_reprojected_eq_error {index : Amount}
    (h : (reprojected s index c).read statuses b = (.error e, c', left)) :
    (∃ inner, c.read statuses b = (.error e, inner, left)) ∨
      ∃ k inner, c.read statuses b = (.ok k, inner, left) ∧
        s.reprojectBuffer statuses left = .error e := by
  simp only [read] at h
  rcases hread : c.read statuses b with ⟨result, moved, filled⟩
  rw [hread] at h
  cases result with
  | error e' =>
      cases h
      exact .inl ⟨moved, rfl⟩
  | ok k =>
      cases hreproject : s.reprojectBuffer statuses filled with
      | error e' =>
          simp only [hreproject] at h
          cases h
          exact .inr ⟨k, moved, rfl, hreproject⟩
      | ok b' =>
          simp only [hreproject] at h
          cases h

namespace WalksOver

theorem leaves_iff (hs : s.generator? = some g) (hc : c.WalksOver s) :
    s.Leaves statuses c.index b left ↔ ∃ n c', c.read statuses b = (.ok n, c', left) := by
  constructor
  · intro h
    exact h.2 c hc rfl
  · intro h
    refine ⟨⟨c, hc, rfl⟩, ?_⟩
    intro u hu hindex
    obtain rfl := eq_of_index_eq hs hu hc hindex
    exact h

end WalksOver

end Cursor

namespace Stage

namespace Leaves

theorem unique {left' : Buffer} (h : s.Leaves statuses a b left)
    (h' : s.Leaves statuses a b left') : left = left' := by
  obtain ⟨⟨c, hc, hindex⟩, hall⟩ := h
  obtain ⟨_, _, hread⟩ := hall c hc hindex
  obtain ⟨_, _, hread'⟩ := h'.2 c hc hindex
  rw [hread] at hread'
  cases hread'
  rfl

theorem layout_eq (h : s.Leaves statuses a b left) : left.layout = b.layout := by
  obtain ⟨⟨c, hc, hindex⟩, hall⟩ := h
  obtain ⟨_, _, hread⟩ := hall c hc hindex
  exact (Cursor.read_keeps hread).1

theorem exists_before (hs : previous.generator? = some g)
    (h : (filter n o (.reprojection r) previous).Leaves statuses a b left) :
    ∃ filled, previous.Leaves statuses a b filled ∧
      (filter n o (.reprojection r) previous).reprojectBuffer statuses filled = .ok left := by
  obtain ⟨⟨c, hc, rfl⟩, hall⟩ := h
  obtain ⟨_, _, hread⟩ := hall c hc rfl
  obtain ⟨inner, rfl, hinner⟩ := hc.exists_inner hs
  obtain ⟨inner', filled, hread, hreproject⟩ := Cursor.read_reprojected_eq_ok hread
  exact ⟨filled, (hinner.leaves_iff hs).mpr ⟨_, inner', hread⟩, hreproject⟩

end Leaves

theorem not_leaves_of_failsAt (hs : s.generator? = some g) (hf : f ∈ s.chain)
    (hfails : f.FailsAt statuses a b) : ¬s.Leaves statuses a b left := by
  induction s, hs using generator?_induction generalizing left with
  | source n o =>
      cases List.mem_singleton.mp hf
      obtain ⟨previous, _, _, hprevious, _⟩ := hfails
      cases hprevious
  | reprojection n o r previous hprevious ih =>
      intro h
      obtain ⟨filled, hfilled, hreproject⟩ := h.exists_before hprevious
      rcases List.mem_append.mp hf with hf | hf
      · exact ih hf hfilled
      · cases List.mem_singleton.mp hf
        obtain ⟨_, left', e, hsame, hleft', hfails⟩ := hfails
        cases hsame
        rw [hleft'.unique hfilled, hreproject] at hfails
        cases hfails

/-- A read over a chain that fails in a transform fails at one filter only, and leaves the buffer as
the read over the stage before that filter does. -/
theorem exists_failing (hs : s.generator? = some g) (hc : c.WalksOver s)
    (hread : c.read statuses b = (.error e, c', left)) (he : e.ofTransform = true) :
    ∃ f ∈ s.chain, ∃ previous, f.previous? = some previous ∧ previous.generator? = some g ∧
      (∀ f' ∈ s.chain, f'.FailsAt statuses c.index b ↔ f' = f) ∧
      previous.Leaves statuses c.index b left ∧ f.reprojectBuffer statuses left = .error e := by
  induction s, hs using generator?_induction generalizing c c' with
  | source n o =>
      have hcursor := hc.eq_cursorAt rfl
      rw [hcursor] at hread
      simp only [cursorAt, Cursor.read] at hread
      rcases hpull : (⟨source n o (.generated g), g, c.index⟩ : SourceCursor).pull b with
        ⟨result, moved, filled⟩
      rw [hpull] at hread
      cases hread
      rw [SourceCursor.ofTransform_pull hpull] at he
      cases he
  | reprojection n o r previous hprevious ih =>
      obtain ⟨inner, rfl, hinner⟩ := hc.exists_inner hprevious
      rcases Cursor.read_reprojected_eq_error hread with ⟨inner', hread⟩ | ⟨k, inner', hread, hfails⟩
      · obtain ⟨f, hf, before, hbefore, hgenerator, hunique, hleaves, hfails⟩ := ih hinner hread
        refine ⟨f, List.mem_append_left _ hf, before, hbefore, hgenerator, ?_, hleaves, hfails⟩
        intro f' hf'
        rcases List.mem_append.mp hf' with hf' | hf'
        · exact hunique f' hf'
        · -- The last filter is given nothing that it could fail at.
          have hnot : ¬f'.FailsAt statuses inner.index b := by
            rw [List.mem_singleton.mp hf']
            rintro ⟨_, _, _, hsame, hleaves, _⟩
            cases hsame
            obtain ⟨_, _, hread'⟩ := (hinner.leaves_iff hprevious).mp hleaves
            rw [hread] at hread'
            cases hread'
          refine ⟨fun h => absurd h hnot, ?_⟩
          rintro rfl
          exact (hunique f' hf).mpr rfl
      · have hleaves := (hinner.leaves_iff hprevious).mpr ⟨k, inner', hread⟩
        have hown : (filter n o (.reprojection r) previous).FailsAt statuses inner.index b :=
          ⟨previous, left, e, rfl, hleaves, hfails⟩
        refine ⟨_, self_mem_chain _, previous, rfl, hprevious, ?_, hleaves, hfails⟩
        intro f' hf'
        constructor
        · intro h
          rcases List.mem_append.mp hf' with hf' | hf'
          · exact absurd hleaves (not_leaves_of_failsAt hprevious hf' h)
          · exact List.mem_singleton.mp hf'
        · rintro rfl
          exact hown

theorem Leaves.exists_made (hs : s.generator? = some g) (hcoordinates : b.schema.HasCoordinates)
    (h : s.Leaves statuses a b left) :
    ∃ head ∈ s.chain, head.previous? = none ∧ ∃ made, head.Leaves statuses a b made ∧
      s.carryRow statuses made.points = .ok left.points ∧ left.count = made.count ∧
      ∀ d row, d ∉ coordinateDimensions ∨ made.count ≤ row → left.word d row = made.word d row := by
  induction s, hs using generator?_induction generalizing left with
  | source n o => exact ⟨_, self_mem_chain _, rfl, left, h, rfl, rfl, fun _ _ _ => rfl⟩
  | reprojection n o r previous hprevious ih =>
      obtain ⟨filled, hfilled, hreproject⟩ := h.exists_before hprevious
      obtain ⟨head, hhead, hfirst, made, hmade, hcarry, hcount, hwords⟩ := ih hfilled
      have hschema : filled.schema = b.schema := congrArg Layout.schema hfilled.layout_eq
      obtain ⟨hrow, hothers⟩ := projectRow_of_reprojectBuffer (hschema ▸ hcoordinates) hreproject
      have hkept := (reprojectBuffer_keeps hreproject).2.2
      refine ⟨head, List.mem_append_left _ hhead, hfirst, made, hmade, ?_, hkept.trans hcount, ?_⟩
      · simp only [carryRow, hcarry]
        exact hrow
      · intro d row hother
        rw [hothers d row (hcount.symm ▸ hother), hwords d row hother]

/-- A read over a chain that fails in a transform fails at just one filter. It leaves the buffer as
the read over the stage before this filter leaves it: the points that the source made are carried
through all filters before it as one row, and through no other, and the rest is as the source left
it. -/
theorem leaves_what_failed (hs : s.generator? = some g) (hc : c.WalksOver s)
    (hread : c.read statuses b = (.error e, c', left)) (he : e.ofTransform = true) :
    ∃ f ∈ s.chain, ∃ previous, f.previous? = some previous ∧
      (∀ f' ∈ s.chain, f'.FailsAt statuses c.index b ↔ f' = f) ∧
      previous.Leaves statuses c.index b left ∧ f.reprojectBuffer statuses left = .error e ∧
      ∃ head ∈ previous.chain, head.previous? = none ∧
        ∃ made, head.Leaves statuses c.index b made ∧
          previous.carryRow statuses made.points = .ok left.points ∧ left.count = made.count ∧
          ∀ d row, d ∉ coordinateDimensions ∨ made.count ≤ row →
            left.word d row = made.word d row := by
  obtain ⟨f, hf, previous, hprevious, hgenerator, hunique, hleaves, hfails⟩ :=
    exists_failing hs hc hread he
  have hschema : left.schema = b.schema := congrArg Layout.schema hleaves.layout_eq
  have hcoordinates := hasCoordinates_of_ofTransform hfails he
  exact ⟨f, hf, previous, hprevious, hunique, hleaves, hfails,
    hleaves.exists_made hgenerator (hschema ▸ hcoordinates)⟩

/-- Behind a filter that doubles the points of a ramp, one with a limit refuses the last of them. The
buffer is left with the doubled points. -/
theorem leaves_doubled_ramp :
    let s := filter 2 [] (.reprojection ⟨⟨"T:CAP"⟩, none⟩) (rampTo 100 "T:HALF")
    let statuses := (s.prepare Local.backend Statuses.none).2
    let b := Buffer.blank ⟨Schema.standard, .stage 0⟩ 3
    ∃ c e c' left, s.cursor statuses = .ok c ∧ c.read statuses b = (.error e, c', left) ∧
      (rampTo 100 "T:HALF").Leaves statuses (.whole 0) b left := by
  intro s statuses b
  obtain ⟨c, hmade⟩ : ∃ c, s.cursor statuses = .ok c := exists_of_isOk (by decide +kernel)
  obtain ⟨u, hu⟩ : ∃ u, (ramp 100).cursor statuses = .ok u := exists_of_isOk (by decide +kernel)
  obtain rfl : c = s.cursorAt (.ramp 100) (.whole 0) := cursor_eq rfl hmade
  obtain rfl : u = (ramp 100).cursorAt (.ramp 100) (.whole 0) := cursor_eq rfl hu
  have hclass : ((s.cursorAt (.ramp 100) (.whole 0)).read statuses b).1.mapError
      Failure.ofTransform = .error true := by
    decide +kernel
  rcases hread : (s.cursorAt (.ramp 100) (.whole 0)).read statuses b with ⟨result, c', left⟩
  rw [hread] at hclass
  cases result with
  | ok n => cases hclass
  | error e =>
      refine ⟨_, e, c', left, hmade, hread, ?_⟩
      obtain ⟨f, hf, previous, hprevious, _, hleaves, hfails, _⟩ :=
        leaves_what_failed rfl (.made hmade) hread (Except.error.inj hclass)
      simp only [s, rampTo, ramp, chain, List.cons_append, List.nil_append, List.mem_cons,
        List.not_mem_nil, or_false] at hf
      rcases hf with rfl | rfl | rfl
      · cases hprevious
      · cases hprevious
        obtain ⟨_, _, hsource⟩ := hleaves.2 _ (.made hu) rfl
        have hfine : ((rampTo 100 "T:HALF").reprojectBuffer statuses
            (((ramp 100).cursorAt (.ramp 100) (.whole 0)).read statuses b).2.2).isOk = true := by
          decide +kernel
        have hfails : (rampTo 100 "T:HALF").reprojectBuffer statuses left = .error e := hfails
        rw [hsource, hfails] at hfine
        cases hfine
      · cases hprevious
        exact hleaves

end Stage

end PointStream

import PointStream.Proofs.Cursor.Source
import PointStream.Proofs.Stage.Chain

namespace PointStream

namespace Cursor

/-- The indices of a cursor and of the cursors that it draws from. -/
def indices : Cursor → List Amount
  | source c => [c.index]
  | reprojected _ index inner => index :: inner.indices

/-- A cursor over a chain at an index: the cursors that it draws from are over the stages before, at
the same index. -/
inductive Over (g : Generator) (i : Nat) : Stage → Cursor → Prop
  | source (n : Nat) (o : Options) :
    Over g i (.source n o (.generated g))
      (.source ⟨.source n o (.generated g), g, .whole i⟩)
  | reprojected {previous : Stage} {inner : Cursor} (n : Nat) (o : Options) (r : Reprojection)
    (h : Over g i previous inner) :
    Over g i (.filter n o (.reprojection r) previous)
      (.reprojected (.filter n o (.reprojection r) previous) (.whole i) inner)

variable {g : Generator} {i : Nat} {s : Stage} {c : Cursor} {statuses : Statuses}

namespace Over

theorem generator?_eq (h : Over g i s c) : s.generator? = some g := by
  induction h with
  | source n o => rfl
  | reprojected n o r _ ih => exact ih

theorem index_eq (h : Over g i s c) : c.index = .whole i := by
  cases h <;> rfl

theorem eq_of_mem_indices (h : Over g i s c) {a : Amount} (ha : a ∈ c.indices) :
    a = .whole i := by
  induction h with
  | source n o => exact List.mem_singleton.mp ha
  | reprojected n o r _ ih =>
      rcases List.mem_cons.mp ha with ha | ha
      · exact ha
      · exact ih ha

theorem atEnd_eq (h : Over g i s c) : c.atEnd = decide (g.total ≤ i) := by
  induction h with
  | source n o => simp [atEnd, Amount.number]
  | reprojected n o r _ ih => exact ih

theorem exists_read {b : Buffer} {qs : List Point} (h : Over g i s c) (htotal : g.total < 2 ^ 64)
    (hcoordinates : s.isFilter = true → b.schema.HasCoordinates)
    (hrow : s.carryRow statuses (g.row i (min b.capacity (g.total - i))) = .ok qs) :
    ∃ c' filled, c.read statuses b =
        (.ok (.whole (min b.capacity (g.total - i))), c', filled) ∧
      Over g (i + min b.capacity (g.total - i)) s c' ∧
      filled.count = min b.capacity (g.total - i) ∧
      Buffer.Overlays b filled (Buffer.written qs i) := by
  induction h generalizing qs with
  | source n o =>
      obtain ⟨filled, hpull, hcount, hoverlays⟩ :=
        SourceCursor.exists_pull (c := ⟨.source n o (.generated g), g, .whole i⟩) rfl htotal b
      cases hrow
      refine ⟨_, filled, ?_, .source n o, hcount, hoverlays⟩
      simp only [read, hpull]
  | @reprojected previous inner n o r h ih =>
      have hcoordinates := hcoordinates rfl
      unfold Stage.carryRow at hrow
      split at hrow
      · cases hrow
      · next ms hms =>
        obtain ⟨inner', filled, hread, hinner, hcount, hoverlays⟩ := ih (fun _ => hcoordinates) hms
        -- The buffer now holds the points as the stages before carry them, so the filter works on
        -- just these.
        have hlength := Stage.length_carryRow h.generator?_eq hms
        rw [Generator.length_row] at hlength
        have hpoints : filled.points = ms :=
          hoverlays.points_written hcoordinates (hcount.trans hlength.symm)
        rw [← hpoints] at hrow
        obtain ⟨b', hreproject, hmoved⟩ := Stage.exists_reprojectBuffer
          (hoverlays.schema ▸ hcoordinates) hrow
        have hmoved' : qs.length = ms.length := by
          rw [← hpoints]
          exact Stage.length_projectRow hrow
        refine ⟨_, b'.holding (min b.capacity (g.total - i)), ?_, .reprojected n o r hinner, ?_,
          (hoverlays.written_moved hmoved hmoved').holding _⟩
        · simp only [read, hread, hreproject, hinner.index_eq, Amount.wholePart]
        · change min _ b'.capacity = _
          rw [hmoved.capacity, hoverlays.capacity]
          exact Nat.min_eq_left (Nat.min_le_left ..)

/-- A read whose points do not get through the chain fails, and moves past them all the same. -/
theorem exists_read_of_error {b : Buffer} {e : Failure} (h : Over g i s c)
    (htotal : g.total < 2 ^ 64) (hcoordinates : s.isFilter = true → b.schema.HasCoordinates)
    (hrow : s.carryRow statuses (g.row i (min b.capacity (g.total - i))) = .error e) :
    ∃ c' filled, c.read statuses b = (.error e, c', filled) ∧
      Over g (i + min b.capacity (g.total - i)) s c' := by
  induction h with
  | source n o => cases hrow
  | @reprojected previous inner n o r h ih =>
      have hcoordinates := hcoordinates rfl
      unfold Stage.carryRow at hrow
      split at hrow
      · next hms =>
        cases hrow
        obtain ⟨inner', filled, hread, hinner⟩ := ih (fun _ => hcoordinates) hms
        refine ⟨_, filled, ?_, .reprojected n o r hinner⟩
        simp only [read, hread, hinner.index_eq]
      · next ms hms =>
        obtain ⟨inner', filled, hread, hinner, hcount, hoverlays⟩ :=
          h.exists_read htotal (fun _ => hcoordinates) hms
        have hlength := Stage.length_carryRow h.generator?_eq hms
        rw [Generator.length_row] at hlength
        rw [← hoverlays.points_written hcoordinates (hcount.trans hlength.symm)] at hrow
        have hreproject := Stage.reprojectBuffer_eq_error (hoverlays.schema ▸ hcoordinates) hrow
        refine ⟨_, filled, ?_, .reprojected n o r hinner⟩
        simp only [read, hread, hreproject, hinner.index_eq]

theorem exists_skip (h : Over g i s c) (count : Nat) :
    ∃ c', c.skip (.whole count) = (.ok (.whole (min count (g.total - i) : Nat)), c') ∧
      Over g (i + min count (g.total - i)) s c' := by
  induction h with
  | source n o =>
      have hskip := SourceCursor.skip_natCast (c := ⟨.source n o (.generated g), g, .whole i⟩) rfl
        count
      refine ⟨_, ?_, .source n o⟩
      simp only [skip, hskip]
  | @reprojected previous inner n o r h ih =>
      obtain ⟨inner', hskip, hinner⟩ := ih
      refine ⟨_, ?_, .reprojected n o r hinner⟩
      have hnonneg : ¬(Number.whole count).lt (.whole 0) = true := by simp
      simp only [skip, hnonneg, hskip, Amount.add_natCast]
      rfl

theorem skip_negative (h : Over g i s c) {count : Int} (hcount : count < 0) :
    c.skip (.whole count) = (.error (.negativeSkip (.whole count)), c) := by
  cases h with
  | source n o => simp only [skip, SourceCursor.skip_negative hcount]
  | reprojected n o r h => simp [skip, hcount]

end Over

end Cursor

namespace Stage

variable {g : Generator} {s : Stage} {statuses : Statuses}

theorem supports_sequential (hs : s.generator? = some g) : s.supports .sequential = .ok true := by
  induction s, hs using generator?_induction with
  | source n o => rfl
  | reprojection n o r previous h ih => exact ih

theorem checkVisit_sequential (hs : s.generator? = some g)
    (hinitialized : (s.status statuses).initialized = true) :
    s.checkVisit .sequential statuses = .ok () := by
  simp [checkVisit, known, hinitialized, supports_sequential hs, bind, Except.bind, pure,
    Except.pure]

theorem exists_cursor (hs : s.generator? = some g)
    (hinitialized : ∀ f ∈ s.chain, (f.status statuses).initialized = true) :
    ∃ c, s.cursor statuses = .ok c ∧ Cursor.Over g 0 s c := by
  induction s, hs using generator?_induction with
  | source n o =>
      refine ⟨_, ?_, .source n o⟩
      exact Visitor.cursor_source (hinitialized _ (self_mem_chain _))
  | reprojection n o r previous h ih =>
      obtain ⟨inner, hinner, hover⟩ := ih fun f hf => hinitialized f (List.mem_append_left _ hf)
      refine ⟨_, ?_, .reprojected n o r hover⟩
      have hcheck := checkVisit_sequential (s := .filter n o (.reprojection r) previous) h
        (hinitialized _ (self_mem_chain _))
      simp only [cursor, hcheck, hinner]
      rfl

end Stage

end PointStream

import PointStream.Proofs.Pipeline.Pending
import PointStream.Proofs.Cursor.Source
import PointStream.Proofs.Stage.Defining
import PointStream.Proofs.Stage.InPlace

namespace PointStream

theorem Generator.count_le_of_read {g : Generator} {b filled : Buffer} {start : Int} {n : Nat}
    (h : g.read b start = .ok (n, filled)) : n ≤ b.capacity ∧ filled.capacity = b.capacity := by
  have havailable : g.available b.capacity start ≤ b.capacity := by
    rw [available]
    omega
  unfold read at h
  dsimp only at h
  split at h
  · cases h
    exact ⟨Nat.zero_le _, rfl⟩
  · split at h
    · cases h
    · next is _ =>
      unfold write at h
      cases hpoints : g.points is with
      | error e =>
          rw [hpoints] at h
          cases h
      | ok ps =>
          simp only [hpoints, Except.map, Except.ok.injEq, Prod.mk.injEq] at h
          obtain ⟨rfl, rfl⟩ := h
          refine ⟨havailable, ?_⟩
          simp only [Buffer.putGenerated, Buffer.capacity_fillDimension]

namespace Cursor

variable {statuses : Statuses} {c c' : Cursor} {b b' : Buffer} {n : Amount}

/-- Whether a cursor has passed over whole numbers of points only. -/
def StandsWhole : Cursor → Prop
  | source c => ∃ i : Nat, c.index = .whole i
  | reprojected _ _ inner => inner.StandsWhole

theorem standsWhole_of_cursor {s : Stage} (h : s.cursor statuses = .ok c) : c.StandsWhole := by
  induction s generalizing c with
  | source n o kind =>
      obtain ⟨_, _, h⟩ := exists_of_bind_eq_ok h
      cases kind with
      | generated g =>
          cases h
          exact ⟨0, rfl⟩
      | plain kind => cases h
  | filter n o kind previous ih =>
      obtain ⟨_, _, h⟩ := exists_of_bind_eq_ok h
      cases kind with
      | reprojection r =>
          obtain ⟨inner, hinner, h⟩ := exists_of_bind_eq_ok h
          cases h
          show inner.StandsWhole
          exact ih hinner
      | plain kind => cases h
  | loose n o kind given =>
      obtain ⟨_, _, h⟩ := exists_of_bind_eq_ok h
      cases h

theorem StandsWhole.of_read (h : c.StandsWhole) (hread : c.read statuses b = (.ok n, c', b')) :
    c'.StandsWhole ∧ b'.capacity = b.capacity ∧ b'.count = n.wholePart := by
  induction c generalizing n c' b' with
  | source c =>
      obtain ⟨i, hi⟩ := h
      rw [read, SourceCursor.pull, hi] at hread
      cases hpoints : c.generator.read b i with
      | error e =>
          simp only [Amount.number, Generator.readAt, hpoints, Except.map] at hread
          cases hread
      | ok taken =>
          obtain ⟨k, filled⟩ := taken
          obtain ⟨hle, hcapacity⟩ := Generator.count_le_of_read hpoints
          have hadvance := SourceCursor.advance_natCast hi k
          simp only [Amount.number, Generator.readAt, hpoints, Except.map, hadvance] at hread
          cases hread
          refine ⟨⟨i + k, rfl⟩, hcapacity, ?_⟩
          change min k filled.capacity = k
          rw [hcapacity]
          exact Nat.min_eq_left hle
  | reprojected s index inner ih =>
      rw [read] at hread
      generalize hinner : inner.read statuses b = taken at hread
      obtain ⟨result, inner', filled⟩ := taken
      cases result with
      | error e => cases hread
      | ok k =>
          obtain ⟨hstands, hcapacity, hcount⟩ := ih h hinner
          cases hmoved : s.reprojectBuffer statuses filled with
          | error e =>
              simp only [hmoved] at hread
              cases hread
          | ok moved =>
              simp only [hmoved, Prod.mk.injEq, Except.ok.injEq] at hread
              obtain ⟨rfl, rfl, rfl⟩ := hread
              have hkept := (Stage.reprojectBuffer_keeps hmoved).2.1
              refine ⟨hstands, hkept.trans hcapacity, ?_⟩
              change min k.wholePart moved.capacity = k.wholePart
              rw [hkept, ← hcount]
              exact Nat.min_eq_left filled.count_le

end Cursor

namespace Run

variable {backend : Backend} {r : Run} {w : World}

/-- Whether a run begins when it is asked for a buffer: it was not asked before, its chunks have a
size, and its pipeline is prepared. -/
def begins (backend : Backend) (r : Run) (w : World) : Bool :=
  match r.phase with
  | .fresh => r.chunkSize.isOk && (r.pipeline.prepare backend w).1.isOk
  | _ => false

/-- Whether the cursor of a run has passed over whole numbers of points only. -/
def StandsWhole (r : Run) : Prop :=
  ∀ cursor layout points, r.phase = .delivered cursor layout points → cursor.StandsWhole

theorem draw_cases (r : Run) (w : World) (chunk : Number) {cursor : Cursor} (layout : Layout)
    (h : cursor.StandsWhole) :
    (∃ result, (∀ b, result ≠ .ok (some b)) ∧
      r.draw w chunk cursor layout = (result, w, r.finish)) ∨
    ∃ b cursor', cursor'.StandsWhole ∧ 0 < b.count ∧
      r.draw w chunk cursor layout =
        (.ok (some b), w.setCount r.pipeline.number (w.count r.pipeline.number + b.count),
          { r with phase := .delivered cursor' layout b.count }) := by
  unfold draw
  split
  · exact .inl ⟨.error _, nofun, rfl⟩
  · split
    · exact .inl ⟨.error _, nofun, rfl⟩
    · next hread =>
      obtain ⟨hstands, _, hcount⟩ := h.of_read hread
      dsimp only
      rw [← hcount]
      split
      · exact .inl ⟨.ok none, nofun, rfl⟩
      · next hpoints => exact .inr ⟨_, _, hstands, Nat.pos_of_ne_zero hpoints, rfl⟩

/-- A request sets the count to zero if it begins the run. After that it gives no buffer, or it
counts the points of the buffer it gives. -/
theorem next_cases (backend : Backend) (w : World) (h : r.StandsWhole) :
    ∃ w₀, w₀.count r.pipeline.number =
        (if r.begins backend w then 0 else w.count r.pipeline.number) ∧
      ((∃ result, (∀ b, result ≠ .ok (some b)) ∧ r.next backend w = (result, w₀, r.finish)) ∨
      ∃ b cursor layout, cursor.StandsWhole ∧ 0 < b.count ∧
        (r.phase = .fresh → r.begins backend w = true) ∧ r.phase ≠ .ended ∧
        r.next backend w =
          (.ok (some b), w₀.setCount r.pipeline.number (w₀.count r.pipeline.number + b.count),
            { r with phase := .delivered cursor layout b.count })) := by
  cases hphase : r.phase with
  | fresh =>
      simp only [next, begins, hphase, enter]
      cases hchunk : r.chunkSize with
      | error e => exact ⟨w, rfl, .inl ⟨.error e, nofun, rfl⟩⟩
      | ok chunk =>
          have hkeeps := r.pipeline.prepare_snd backend w
          generalize r.pipeline.prepare backend w = outcome at hkeeps ⊢
          rcases outcome with ⟨e | _, ready⟩
          · obtain rfl := hkeeps
            refine ⟨_, ?_, .inl ⟨.error e, nofun, rfl⟩⟩
            rfl
          · have hzero : (ready.setCount r.pipeline.number 0).count r.pipeline.number = 0 :=
              (Table.get_set ..).trans (if_pos rfl)
            refine ⟨ready.setCount r.pipeline.number 0, hzero, ?_⟩
            dsimp only
            split
            · exact .inl ⟨.error _, nofun, rfl⟩
            · next cursor layout houtset =>
              have hstands : cursor.StandsWhole := by
                obtain ⟨s, _, houtset⟩ := exists_of_bind_eq_ok houtset
                obtain ⟨c, hc, houtset⟩ := exists_of_bind_eq_ok houtset
                obtain ⟨l, _, houtset⟩ := exists_of_bind_eq_ok houtset
                cases houtset
                exact Cursor.standsWhole_of_cursor hc
              rcases r.draw_cases (ready.setCount r.pipeline.number 0) chunk layout hstands with
                hdraw | ⟨b, cursor', hcursor', hpos, hdraw⟩
              · exact .inl hdraw
              · exact .inr ⟨b, cursor', layout, hcursor', hpos, fun _ => rfl, nofun, hdraw⟩
  | ended =>
      simp only [next, begins, hphase]
      refine ⟨w, rfl, .inl ⟨.ok none, nofun, ?_⟩⟩
      rw [finish, ← hphase]
  | delivered cursor layout points =>
      simp only [next, begins, hphase]
      refine ⟨w, rfl, ?_⟩
      split
      · exact .inl ⟨.error _, nofun, rfl⟩
      · split
        · exact .inl ⟨.ok none, nofun, rfl⟩
        · rcases r.draw_cases w _ layout (h _ _ _ hphase) with
            hdraw | ⟨b, cursor', hcursor', hpos, hdraw⟩
          · exact .inl hdraw
          · exact .inr ⟨b, cursor', layout, hcursor', hpos, nofun, nofun, hdraw⟩

end Run

end PointStream

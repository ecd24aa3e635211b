import PointStream.Pipeline.Run
import PointStream.Proofs.Stage.Changes

namespace PointStream

/-- The statuses after a stage was prepared, if there was one to prepare. -/
def Stage.preparing (backend : Backend) (pending : Option Stage) (statuses : Statuses) : Statuses :=
  match pending with
  | none => statuses
  | some s => (s.prepare backend statuses).2

namespace Pipeline

variable {p : Pipeline} {backend : Backend} {statuses : Statuses} {s : Stage} {w : World}

/-- The stage that is prepared when a pipeline is. -/
def pending? (p : Pipeline) (statuses : Statuses) : Option Stage :=
  if p.problems.isEmpty then p.stages.getLast?.filter fun s => !(s.status statuses).initialized
  else none

theorem mem_of_pending? (h : p.pending? statuses = some s) : s ∈ p.stages := by
  unfold pending? at h
  split at h
  · exact List.mem_of_getLast? (Option.filter_eq_some_iff.mp h).1
  · cases h

theorem prepare_snd (p : Pipeline) (backend : Backend) (w : World) :
    (p.prepare backend w).2 =
      { w with statuses := Stage.preparing backend (p.pending? w.statuses) w.statuses } := by
  unfold prepare pending? last
  cases p.problems with
  | cons problem problems => rfl
  | nil =>
      cases p.stages.getLast? with
      | none => rfl
      | some s =>
          cases hready : (s.status w.statuses).initialized <;>
            simp only [hready, List.isEmpty_nil, Option.filter] <;> rfl

theorem initialized_last_of_prepare {w' : World} (hlast : p.last = .ok s)
    (h : p.prepare backend w = (.ok (), w')) : (s.status w'.statuses).initialized = true := by
  unfold prepare at h
  split at h
  · simp only [hlast] at h
    split at h
    · next hready =>
      cases h
      exact hready
    · obtain ⟨hresult, hw⟩ := Prod.mk.inj h
      rw [← hw]
      exact Stage.initialized_of_prepare hresult
  · cases h

end Pipeline

namespace Run

variable {r : Run} {backend : Backend} {w : World}

/-- The stage that is prepared when a run is asked for a buffer. -/
def pending? (r : Run) (statuses : Statuses) : Option Stage :=
  match r.phase, r.chunkSize with
  | .fresh, .ok _ => r.pipeline.pending? statuses
  | _, _ => none

theorem mem_of_pending? {statuses : Statuses} {s : Stage} (h : r.pending? statuses = some s) :
    s ∈ r.pipeline.stages := by
  unfold pending? at h
  split at h
  · exact Pipeline.mem_of_pending? h
  · cases h

theorem pending?_finish (r : Run) (statuses : Statuses) : r.finish.pending? statuses = none :=
  rfl

theorem draw_keeps (r : Run) (w : World) (chunk : Number) (cursor : Cursor) (layout : Layout) :
    (r.draw w chunk cursor layout).2.2.pipeline = r.pipeline ∧
      (r.draw w chunk cursor layout).2.1.numbers = w.numbers ∧
      (r.draw w chunk cursor layout).2.1.statuses = w.statuses ∧
      ∀ statuses, (r.draw w chunk cursor layout).2.2.pending? statuses = none := by
  unfold draw
  split
  · exact ⟨rfl, rfl, rfl, r.pending?_finish⟩
  · split
    · exact ⟨rfl, rfl, rfl, r.pending?_finish⟩
    · dsimp only
      split
      · exact ⟨rfl, rfl, rfl, r.pending?_finish⟩
      · exact ⟨rfl, rfl, rfl, fun _ => rfl⟩

/-- A run stays a run of its pipeline, and does no more to the stages than to prepare the one that
is pending. -/
theorem next_keeps (r : Run) (backend : Backend) (w : World) :
    (r.next backend w).2.2.pipeline = r.pipeline ∧
      (r.next backend w).2.1.numbers = w.numbers ∧
      (r.next backend w).2.1.statuses =
        Stage.preparing backend (r.pending? w.statuses) w.statuses ∧
      ∀ statuses, (r.next backend w).2.2.pending? statuses = none := by
  unfold next
  split
  · next hfresh =>
    unfold enter
    cases hchunk : r.chunkSize with
    | error e =>
        have hpending : r.pending? w.statuses = none := by simp only [pending?, hfresh, hchunk]
        rw [hpending]
        exact ⟨rfl, rfl, rfl, r.pending?_finish⟩
    | ok chunk =>
        have hpending : r.pending? w.statuses = r.pipeline.pending? w.statuses := by
          simp only [pending?, hfresh, hchunk]
        have hprepare := r.pipeline.prepare_snd backend w
        rw [hpending]
        dsimp only
        generalize r.pipeline.prepare backend w = outcome at hprepare ⊢
        rcases outcome with ⟨_ | _, ready⟩
        · obtain rfl := hprepare
          exact ⟨rfl, rfl, rfl, r.pending?_finish⟩
        · obtain rfl := hprepare
          dsimp only
          split
          · exact ⟨rfl, rfl, rfl, r.pending?_finish⟩
          · exact r.draw_keeps _ _ _ _
  · next hended =>
    have hpending : ∀ statuses, r.pending? statuses = none := by
      intro statuses
      simp only [pending?, hended]
    rw [hpending]
    exact ⟨rfl, rfl, rfl, hpending⟩
  · next hdelivered =>
    have hpending : r.pending? w.statuses = none := by simp only [pending?, hdelivered]
    rw [hpending]
    split
    · exact ⟨rfl, rfl, rfl, r.pending?_finish⟩
    · split
      · exact ⟨rfl, rfl, rfl, r.pending?_finish⟩
      · exact r.draw_keeps _ _ _ _

theorem drain_of_not_pending (h : ∀ statuses, r.pending? statuses = none) (fuel : Nat) :
    (r.drain backend fuel w).2.numbers = w.numbers ∧
      (r.drain backend fuel w).2.statuses = w.statuses := by
  induction fuel generalizing r w with
  | zero => exact ⟨rfl, rfl⟩
  | succ fuel ih =>
      obtain ⟨_, hnumbers, hstatuses, hpending⟩ := r.next_keeps backend w
      rw [h] at hstatuses
      rw [drain]
      generalize r.next backend w = outcome at hnumbers hstatuses hpending ⊢
      rcases outcome with ⟨_ | _ | _, w', r'⟩
      · exact ⟨hnumbers, hstatuses⟩
      · exact ⟨hnumbers, hstatuses⟩
      · obtain ⟨hnumbers', hstatuses'⟩ := ih (w := w') hpending
        exact ⟨hnumbers'.trans hnumbers, hstatuses'.trans hstatuses⟩

theorem drain_keeps (r : Run) (backend : Backend) (fuel : Nat) (w : World) :
    (r.drain backend (fuel + 1) w).2.numbers = w.numbers ∧
      (r.drain backend (fuel + 1) w).2.statuses =
        Stage.preparing backend (r.pending? w.statuses) w.statuses := by
  obtain ⟨_, hnumbers, hstatuses, hpending⟩ := r.next_keeps backend w
  rw [drain]
  generalize r.next backend w = outcome at hnumbers hstatuses hpending ⊢
  rcases outcome with ⟨_ | _ | _, w', r'⟩
  · exact ⟨hnumbers, hstatuses⟩
  · exact ⟨hnumbers, hstatuses⟩
  · obtain ⟨hnumbers', hstatuses'⟩ := drain_of_not_pending (w := w') hpending fuel
    exact ⟨hnumbers'.trans hnumbers, hstatuses'.trans hstatuses⟩

end Run

theorem Pipeline.execute_keeps (p : Pipeline) (backend : Backend) (chunk : Value) (w : World) :
    (p.execute backend chunk w).2.numbers = w.numbers ∧
      (p.execute backend chunk w).2.statuses =
        Stage.preparing backend ((Run.start p chunk).pending? w.statuses) w.statuses := by
  have hdrain := (Run.start p chunk).drain_keeps backend
    (((p.stages.getLast?).map Stage.sourceTotal).getD 0) w
  unfold execute
  dsimp only
  generalize (Run.start p chunk).drain backend _ w = outcome at hdrain ⊢
  rcases outcome with ⟨_ | _, w'⟩
  · exact hdrain
  · exact hdrain

end PointStream

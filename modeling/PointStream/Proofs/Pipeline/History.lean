import PointStream.Proofs.Pipeline.Drawing
import Mathlib.Algebra.Order.BigOperators.Group.List
import Mathlib.Algebra.Order.Ring.Nat

namespace PointStream

/-- What is told of the runs of a pipeline, which are numbered in the order of their making. -/
inductive Event where
  | began (run : Nat)
  | delivered (run points : Nat)
deriving DecidableEq

/-- The events of the runs of a pipeline, the latest one first. -/
abbrev History := List Event

namespace Event

def run : Event → Nat
  | began n | delivered n _ => n

end Event

namespace History

/-- The run that began last. -/
def latest? : History → Option Nat
  | [] => none
  | .began n :: _ => some n
  | .delivered _ _ :: earlier => latest? earlier

/-- The runs that have delivered points since a run last began, and the numbers of the points. -/
def recent : History → List (Nat × Nat)
  | .delivered n points :: earlier => (n, points) :: recent earlier
  | _ => []

/-- The number of points that a run has delivered. -/
def pointsOf (n : Nat) : History → Nat
  | [] => 0
  | .began _ :: earlier => pointsOf n earlier
  | .delivered m points :: earlier => (if m = n then points else 0) + pointsOf n earlier

/-- The count to which events lead from another one. -/
def countFrom (count : Nat) : History → Nat
  | [] => count
  | .began _ :: _ => 0
  | .delivered _ points :: earlier => points + countFrom count earlier

/-- Whether every run began before it delivered points, and only once. -/
def Orderly : History → Prop
  | [] => True
  | .began n :: earlier => (∀ e ∈ earlier, e.run ≠ n) ∧ Orderly earlier
  | .delivered n points :: earlier => 0 < points ∧ .began n ∈ earlier ∧ Orderly earlier

variable {history : History} {n count : Nat}

theorem countFrom_append (later earlier : History) :
    countFrom count (later ++ earlier) = countFrom (countFrom count earlier) later := by
  induction later with
  | nil => rfl
  | cons e later ih =>
      cases e with
      | began n => rfl
      | delivered n points => exact congrArg (points + ·) ih

theorem countFrom_eq_sum (hlatest : latest? history = some n) :
    countFrom count history = ((recent history).map Prod.snd).sum := by
  induction history with
  | nil => cases hlatest
  | cons e earlier ih =>
      cases e with
      | began m => rfl
      | delivered m points =>
          simp only [countFrom, recent, List.map_cons, List.sum_cons, ih hlatest]

theorem pointsOf_eq_zero (h : ∀ e ∈ history, e.run ≠ n) : pointsOf n history = 0 := by
  induction history with
  | nil => rfl
  | cons e earlier ih =>
      have hearlier := ih fun e he => h e (List.mem_cons_of_mem _ he)
      cases e with
      | began m => exact hearlier
      | delivered m points =>
          have hne : m ≠ n := h _ (List.mem_cons_self ..)
          rw [pointsOf, if_neg hne, hearlier]

namespace Orderly

theorem eq_nil (h : Orderly history) (hlatest : latest? history = none) : history = [] := by
  induction history with
  | nil => rfl
  | cons e earlier ih =>
      cases e with
      | began m => cases hlatest
      | delivered m points =>
          obtain ⟨_, hbegan, hearlier⟩ := h
          rw [ih hearlier hlatest] at hbegan
          cases hbegan

theorem pointsOf_latest (h : Orderly history) (hlatest : latest? history = some n) :
    pointsOf n history =
      (((recent history).filter fun d => d.1 = n).map Prod.snd).sum := by
  induction history with
  | nil => cases hlatest
  | cons e earlier ih =>
      cases e with
      | began m =>
          cases hlatest
          show pointsOf _ earlier = 0
          exact pointsOf_eq_zero h.1
      | delivered m points =>
          obtain ⟨_, _, hearlier⟩ := h
          rw [pointsOf, recent, List.filter_cons, ih hearlier hlatest]
          by_cases hm : m = n
          · simp [hm]
          · simp [hm]

theorem pos_of_mem_recent (h : Orderly history) : ∀ d ∈ recent history, 0 < d.2 := by
  induction history with
  | nil => nofun
  | cons e earlier ih =>
      cases e with
      | began m => nofun
      | delivered m points =>
          obtain ⟨hpos, _, hearlier⟩ := h
          intro d hd
          rcases List.mem_cons.mp hd with rfl | hd
          · exact hpos
          · exact ih hearlier d hd

end Orderly

theorem sum_eq_sum_filter_iff {ds : List (Nat × Nat)} (hpos : ∀ d ∈ ds, 0 < d.2) :
    (ds.map Prod.snd).sum = ((ds.filter fun d => d.1 = n).map Prod.snd).sum ↔
      ∀ d ∈ ds, d.1 = n := by
  induction ds with
  | nil => simp
  | cons d ds ih =>
      have hle : ((ds.filter fun d => d.1 = n).map Prod.snd).sum ≤ (ds.map Prod.snd).sum :=
        (List.filter_sublist.map Prod.snd).sum_le_sum fun _ _ => Nat.zero_le _
      have ih := ih fun d hd => hpos d (List.mem_cons_of_mem _ hd)
      have hd := hpos d (List.mem_cons_self ..)
      by_cases hn : d.1 = n
      · simpa [hn] using ih
      · have hne : d.2 + (ds.map Prod.snd).sum ≠
            ((ds.filter fun d => d.1 = n).map Prod.snd).sum := by
          omega
        simpa [hn] using hne

/-- The count is that of the run that began last if and only if no other one has delivered points
since then. -/
theorem Orderly.countFrom_eq_pointsOf_iff (h : Orderly history)
    (hlatest : latest? history = some n) :
    countFrom count history = pointsOf n history ↔ ∀ d ∈ recent history, d.1 = n := by
  rw [countFrom_eq_sum hlatest, h.pointsOf_latest hlatest]
  exact sum_eq_sum_filter_iff h.pos_of_mem_recent

end History

namespace Run

variable {backend : Backend} {r : Run} {w : World} {history : History} {n : Nat}

def begun (backend : Backend) (n : Nat) (r : Run) (w : World) : History :=
  if r.begins backend w then [.began n] else []

/-- What is told of a run when it is asked for a buffer. -/
def told (backend : Backend) (n : Nat) (r : Run) (w : World) : History :=
  match (r.next backend w).1 with
  | .ok (some b) => .delivered n b.count :: r.begun backend n w
  | _ => r.begun backend n w

/-- What is told of a run when it is asked for buffers until it ends, at most a given number of
times. -/
def toldAll (backend : Backend) (n : Nat) : Nat → Run → World → History
  | 0, _, _ => []
  | fuel + 1, r, w =>
    match r.next backend w with
    | (.ok (some _), w', r') => toldAll backend n fuel r' w' ++ r.told backend n w
    | _ => r.told backend n w

/-- Whether a history knows as much of a run as the run has done. -/
def Recorded (n : Nat) (history : History) (r : Run) : Prop :=
  match r.phase with
  | .fresh => ∀ e ∈ history, e.run ≠ n
  | .delivered cursor _ _ => .began n ∈ history ∧ cursor.StandsWhole
  | .ended => True

namespace Recorded

theorem standsWhole (h : r.Recorded n history) : r.StandsWhole := by
  intro cursor layout points hphase
  rw [Recorded, hphase] at h
  exact h.2

theorem of_others {later : History} (h : r.Recorded n history)
    (hlater : ∀ e ∈ later, e.run ≠ n) : r.Recorded n (later ++ history) := by
  unfold Recorded at h ⊢
  split at h
  · intro e he
    exact (List.mem_append.mp he).elim (hlater e) (h e)
  · exact ⟨List.mem_append_right _ h.1, h.2⟩
  · trivial

theorem begun (h : r.Recorded n history) (horderly : history.Orderly) (backend : Backend)
    (w : World) :
    (r.begun backend n w ++ history).Orderly ∧
      ∀ count, History.countFrom count (r.begun backend n w) =
        if r.begins backend w then 0 else count := by
  unfold Run.begun
  cases hbegins : r.begins backend w with
  | false => exact ⟨horderly, fun _ => rfl⟩
  | true =>
      unfold begins at hbegins
      split at hbegins
      · next hphase =>
        rw [Recorded, hphase] at h
        exact ⟨⟨h, horderly⟩, fun _ => rfl⟩
      · cases hbegins

theorem next (h : r.Recorded n history) (horderly : history.Orderly) (backend : Backend)
    (w : World) :
    (r.told backend n w ++ history).Orderly ∧
      (r.next backend w).2.2.Recorded n (r.told backend n w ++ history) ∧
      (∀ e ∈ r.told backend n w, e.run = n) ∧
      (r.next backend w).2.1.count r.pipeline.number =
        History.countFrom (w.count r.pipeline.number) (r.told backend n w) := by
  obtain ⟨hbegun, hcountFrom⟩ := h.begun horderly backend w
  obtain ⟨w₀, hcount, hnext⟩ := next_cases backend w h.standsWhole
  rw [← hcountFrom] at hcount
  have hrun : ∀ e ∈ r.begun backend n w, e.run = n := by
    intro e he
    unfold Run.begun at he
    split at he
    · rw [List.mem_singleton.mp he, Event.run]
    · cases he
  rcases hnext with ⟨result, hresult, hnext⟩ |
    ⟨b, cursor, layout, hstands, hpos, hfresh, hended, hnext⟩
  · have htold : r.told backend n w = r.begun backend n w := by
      unfold told
      rw [hnext]
      split
      · next hsome => exact (hresult _ hsome).elim
      · rfl
    rw [htold, hnext]
    exact ⟨hbegun, trivial, hrun, hcount⟩
  · have htold : r.told backend n w = .delivered n b.count :: r.begun backend n w := by
      simp only [told, hnext]
    have hbegan : .began n ∈ r.begun backend n w ++ history := by
      cases hphase : r.phase with
      | fresh =>
          rw [Run.begun, if_pos (hfresh hphase)]
          exact List.mem_cons_self ..
      | ended => exact (hended hphase).elim
      | delivered cursor layout points =>
          rw [Recorded, hphase] at h
          exact List.mem_append_right _ h.1
    rw [htold, hnext]
    refine ⟨⟨hpos, hbegan, hbegun⟩, ⟨List.mem_cons_of_mem _ hbegan, hstands⟩, ?_, ?_⟩
    · intro e he
      rcases List.mem_cons.mp he with rfl | he
      · rfl
      · exact hrun e he
    · rw [History.countFrom, ← hcount, Nat.add_comm]
      exact (Table.get_set ..).trans (if_pos rfl)

theorem drain (h : r.Recorded n history) (horderly : history.Orderly) (backend : Backend)
    (fuel : Nat) (w : World) :
    (r.toldAll backend n fuel w ++ history).Orderly ∧
      (∀ e ∈ r.toldAll backend n fuel w, e.run = n) ∧
      (r.drain backend fuel w).2.count r.pipeline.number =
        History.countFrom (w.count r.pipeline.number) (r.toldAll backend n fuel w) := by
  induction fuel generalizing r w history with
  | zero => exact ⟨horderly, nofun, rfl⟩
  | succ fuel ih =>
      obtain ⟨horderly', hrecorded, hrun, hcount⟩ := h.next horderly backend w
      have hpipeline := (r.next_keeps backend w).1
      rw [Run.drain, toldAll]
      generalize r.next backend w = outcome at hrecorded hcount hpipeline ⊢
      rcases outcome with ⟨e | _ | b, w', r'⟩
      · exact ⟨horderly', hrun, hcount⟩
      · exact ⟨horderly', hrun, hcount⟩
      · obtain ⟨horderly'', hrun', hcount'⟩ := ih hrecorded horderly' w'
        rw [hpipeline, hcount] at hcount'
        refine ⟨?_, ?_, ?_⟩
        · rw [List.append_assoc]
          exact horderly''
        · intro e he
          exact (List.mem_append.mp he).elim (hrun' e) (hrun e)
        · rw [History.countFrom_append]
          exact hcount'

end Recorded

end Run

end PointStream

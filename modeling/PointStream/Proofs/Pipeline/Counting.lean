import PointStream.Proofs.Pipeline.Delivery
import PointStream.Proofs.Pipeline.History

namespace PointStream

/-- More buffers than this a run does not give. -/
def Pipeline.mostBuffers (p : Pipeline) : Nat :=
  ((p.stages.getLast?).map Stage.sourceTotal).getD 0

theorem Pipeline.execute_snd (p : Pipeline) (backend : Backend) (chunk : Value) (w : World) :
    (p.execute backend chunk w).2 =
      (Run.drain backend (p.mostBuffers + 1) (.start p chunk) w).2 := by
  unfold execute mostBuffers
  dsimp only
  split
  · next hdrain => rw [hdrain]
  · next hdrain => rw [hdrain]

/-- The runs of a pipeline, the world they live in, and what is told of them. -/
structure Ledger where
  world : World
  runs : List Run
  history : History

/-- What can be asked of a pipeline and of its runs. -/
inductive Call where
  | iterate (chunk : Value)
  | next (run : Nat)
  | execute (chunk : Value)

namespace Ledger

def start (w : World) : Ledger :=
  ⟨w, [], []⟩

/-- To execute a pipeline is to make a run of it that is asked until it ends. -/
def serve (backend : Backend) (p : Pipeline) (l : Ledger) : Call → Ledger
  | .iterate chunk => { l with runs := l.runs ++ [.start p chunk] }
  | .next n =>
    match l.runs[n]? with
    | none => l
    | some r =>
      { world := (r.next backend l.world).2.1
        runs := l.runs.set n (r.next backend l.world).2.2
        history := r.told backend n l.world ++ l.history }
  | .execute chunk =>
    let r := Run.start p chunk
    { world := (p.execute backend chunk l.world).2
      runs := l.runs ++ [r.finish]
      history := r.toldAll backend l.runs.length (p.mostBuffers + 1) l.world ++ l.history }

def afterAll (backend : Backend) (p : Pipeline) (w : World) (calls : List Call) : Ledger :=
  calls.foldl (serve backend p) (start w)

/-- Whether the history of a ledger accounts for the count of the pipeline and for every run. -/
structure Balanced (p : Pipeline) (count : Nat) (l : Ledger) : Prop where
  recorded : ∀ n (r : Run), l.runs[n]? = some r → r.pipeline = p ∧ r.Recorded n l.history
  run_lt : ∀ e ∈ l.history, e.run < l.runs.length
  orderly : l.history.Orderly
  count_eq : l.world.count p.number = l.history.countFrom count

namespace Balanced

variable {backend : Backend} {p : Pipeline} {count : Nat} {l : Ledger}

theorem recorded_start (h : l.Balanced p count) (chunk : Value) :
    (Run.start p chunk).Recorded l.runs.length l.history := by
  intro e he
  exact Nat.ne_of_lt (h.run_lt e he)

theorem iterate (h : l.Balanced p count) (chunk : Value) :
    (l.serve backend p (.iterate chunk)).Balanced p count where
  recorded := by
    intro n r hr
    rcases getElem?_concat_eq_some hr with hr | ⟨rfl, rfl⟩
    · exact h.recorded n r hr
    · exact ⟨rfl, h.recorded_start chunk⟩
  run_lt := by
    intro e he
    rw [serve, List.length_append]
    exact Nat.lt_succ_of_lt (h.run_lt e he)
  orderly := h.orderly
  count_eq := h.count_eq

theorem next (h : l.Balanced p count) (n : Nat) :
    (l.serve backend p (.next n)).Balanced p count := by
  rw [serve]
  split
  · exact h
  · next r hr =>
    obtain ⟨hpipeline, hrecorded⟩ := h.recorded n r hr
    obtain ⟨horderly, hrecorded', hrun, hcount⟩ := hrecorded.next h.orderly backend l.world
    have hn : n < l.runs.length := (List.getElem?_eq_some_iff.mp hr).1
    constructor
    · intro m r' hr'
      dsimp only at hr'
      rw [List.getElem?_set] at hr'
      split at hr'
      · next hm =>
        subst hm
        obtain rfl := Option.some.inj hr'
        exact ⟨(r.next_keeps backend l.world).1.trans hpipeline, hrecorded'⟩
      · next hm =>
        obtain ⟨hpipeline', hother⟩ := h.recorded m r' hr'
        refine ⟨hpipeline', hother.of_others ?_⟩
        intro e he heq
        exact hm ((hrun e he).symm.trans heq)
    · intro e he
      rw [List.length_set]
      rcases List.mem_append.mp he with he | he
      · rw [hrun e he]
        exact hn
      · exact h.run_lt e he
    · exact horderly
    · rw [← hpipeline]
      dsimp only
      rw [hcount, History.countFrom_append, hpipeline, h.count_eq]

theorem execute (h : l.Balanced p count) (chunk : Value) :
    (l.serve backend p (.execute chunk)).Balanced p count := by
  obtain ⟨horderly, hrun, hcount⟩ := (h.recorded_start chunk).drain h.orderly backend
    (p.mostBuffers + 1) l.world
  rw [serve]
  constructor
  · intro m r hr
    rcases getElem?_concat_eq_some hr with hr | ⟨rfl, rfl⟩
    · obtain ⟨hpipeline, hother⟩ := h.recorded m r hr
      refine ⟨hpipeline, hother.of_others ?_⟩
      intro e he
      rw [hrun e he]
      exact Nat.ne_of_gt (List.getElem?_eq_some_iff.mp hr).1
    · exact ⟨rfl, trivial⟩
  · intro e he
    rw [List.length_append]
    rcases List.mem_append.mp he with he | he
    · rw [hrun e he]
      exact Nat.lt_succ_self _
    · exact Nat.lt_succ_of_lt (h.run_lt e he)
  · exact horderly
  · dsimp only
    rw [Pipeline.execute_snd, History.countFrom_append, ← h.count_eq]
    exact hcount

theorem serve (h : l.Balanced p count) (call : Call) :
    (l.serve backend p call).Balanced p count := by
  cases call with
  | iterate chunk => exact h.iterate chunk
  | next n => exact h.next n
  | execute chunk => exact h.execute chunk

end Balanced

theorem balanced_afterAll (backend : Backend) (p : Pipeline) (w : World) (calls : List Call) :
    (afterAll backend p w calls).Balanced p (w.count p.number) := by
  apply List.foldlRecOn calls (serve backend p)
    (motive := fun l => l.Balanced p (w.count p.number))
  · exact ⟨nofun, nofun, trivial, rfl⟩
  · intro l h call _
    exact h.serve call

/-- The count of a pipeline is as it was until a run begins. From then on it is the number of points
that all runs have delivered since a run last began, and this is the number of points of that run if
and only if no other run has delivered any since then. -/
theorem count_afterAll (backend : Backend) (p : Pipeline) (w : World) (calls : List Call) :
    let l := afterAll backend p w calls
    (l.history.latest? = none → l.world.count p.number = w.count p.number) ∧
      ∀ n, l.history.latest? = some n →
        l.world.count p.number = ((l.history.recent).map Prod.snd).sum ∧
        (l.world.count p.number = l.history.pointsOf n ↔ ∀ d ∈ l.history.recent, d.1 = n) := by
  intro l
  obtain ⟨_, _, horderly, hcount⟩ := balanced_afterAll backend p w calls
  constructor
  · intro hlatest
    rw [hcount, horderly.eq_nil hlatest]
    rfl
  · intro n hlatest
    rw [hcount]
    exact ⟨History.countFrom_eq_sum hlatest, horderly.countFrom_eq_pointsOf_iff hlatest⟩

/-- What is told of a pipeline of three points, which gives them one by one or all at once. -/
def ofRamp (calls : List Call) : Ledger :=
  afterAll Local.backend (.ofRamp 2 "T:SHIFT") (Setting.ofRamp 2 "T:SHIFT").world calls

def rampCount (calls : List Call) : Nat :=
  (ofRamp calls).world.count (Pipeline.ofRamp 2 "T:SHIFT").number

/-- An older run that is asked again behind an execution is counted with it. -/
theorem not_count_of_latest :
    ¬∀ calls n, (ofRamp calls).history.latest? = some n →
      rampCount calls = (ofRamp calls).history.pointsOf n := by
  intro h
  have hcount := h [.iterate (.whole 1), .next 0, .execute (.whole 3), .next 0] 1
  revert hcount
  decide +kernel

/-- Two runs that take turns: the points of the second one are counted, and those of the first one
until the second one began are not. -/
theorem count_of_two_runs :
    let calls := [Call.iterate (.whole 2), .next 0, .iterate (.whole 1), .next 1, .next 1]
    (ofRamp calls).history.latest? = some 1 ∧ rampCount calls = 2 ∧
      rampCount calls = (ofRamp calls).history.pointsOf 1 := by
  intro calls
  have hlatest : (ofRamp calls).history.latest? = some 1 := by decide +kernel
  have hrecent : (ofRamp calls).history.recent = [(1, 1), (1, 1)] := by decide +kernel
  obtain ⟨hsum, hof⟩ := (count_afterAll _ _ _ calls).2 1 hlatest
  refine ⟨hlatest, ?_, hof.mpr ?_⟩
  · rw [← ofRamp, hrecent] at hsum
    exact hsum
  · rw [← ofRamp, hrecent]
    decide

end Ledger

end PointStream

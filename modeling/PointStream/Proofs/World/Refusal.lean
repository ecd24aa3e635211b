import PointStream.Cursor
import PointStream.Proofs.World.Course

namespace PointStream

namespace Stage

/-- Whether a stage is still new, so that nothing but preparing it can succeed. -/
structure Unusable (statuses : Statuses) (s : Stage) : Prop where
  new : (s.status statuses).initialized = false
  transform : (s.status statuses).transform = none
  known : s.known statuses = .error (.notInitialized s.typeName)
  layout : s.layout statuses = .error (.notInitialized s.typeName)
  cursor : s.cursor statuses = .error (.notInitialized s.typeName)
  randomCursor : s.randomCursor statuses = .error (.notInitialized s.typeName)

variable {backend : Backend} {updated : Prop} {statuses : Statuses} {s f : Stage} {e : Failure}

theorem unusable_of_new (hagrees : s.Agrees backend updated (s.status statuses))
    (hnew : (s.status statuses).initialized = false) : s.Unusable statuses := by
  have hknown : s.known statuses = .error (.notInitialized s.typeName) := by
    simp only [known, hnew]
    rfl
  have hvisit (visit : Visit) :
      s.checkVisit visit statuses = .error (.notInitialized s.typeName) := by
    simp only [checkVisit, hknown, bind, Except.bind]
  refine ⟨hnew, hagrees.transform_new hnew, hknown, ?_, ?_, ?_⟩
  · rw [layout, hknown]
    rfl
  · cases s <;> simp only [cursor, hvisit, bind, Except.bind]
  · simp only [randomCursor, hvisit, bind, Except.bind]

/-- What keeps a stage from being derived is the lack of a stage before it, the schema or the
references that are there. -/
inductive Cause (backend : Backend) : Stage → Failure → Prop
  | unattached (n : Nat) (o : Options) (kind : FilterKind) :
    Cause backend (.loose n o kind none) (.sourceRequired kind.typeName)
  | misattached (n : Nat) (o : Options) (kind : FilterKind) (v : Value) :
    Cause backend (.loose n o kind (some v)) .noSuchProperty
  | impedance (n : Nat) (o : Options) (r : Reprojection) (previous : Stage) (missing : List String)
    (hunasked : (filter n o (.reprojection r) previous).request? backend = none) :
    Cause backend (.filter n o (.reprojection r) previous) (.impedance missing)
  | acquisition (n : Nat) (o : Options) (r : Reprojection) (previous : Stage) (e : Failure)
    (hclass : e.ofAcquisition = true)
    (hdescriptor : e.descriptor =
      let input := r.input.getD (previous.metadata backend).reference
      if input.isEmpty then input.text else r.blamed backend (previous.metadata backend)) :
    Cause backend (.filter n o (.reprojection r) previous) e

theorem cause_of_obstacle (h : s.obstacle? backend = some e) : s.Cause backend e := by
  cases s with
  | source n o kind => cases h
  | loose n o kind given =>
      cases given with
      | none =>
          cases h
          exact .unattached n o kind
      | some v =>
          cases h
          exact .misattached n o kind v
  | filter n o kind previous =>
      cases kind with
      | plain p => cases h
      | reprojection r =>
          rcases Reprojection.obstacle_cases h with ⟨⟨missing, rfl⟩, hunasked⟩ | hrest
          · exact .impedance n o r previous missing hunasked
          · exact .acquisition n o r previous e hrest.1 hrest.2

end Stage

namespace Setting

/-- What it means that preparing a stage fails at a certain stage of its chain. -/
structure Refusal (backend : Backend) (σ : Setting) (s : Stage) (e : Failure) (before : List Stage)
    (f : Stage) (behind : List Stage) : Prop where
  chain_eq : s.chain = before ++ f :: behind
  /-- No stage before the one that fails is new and has an obstacle. -/
  first : ∀ g ∈ before, (g.status σ.world.statuses).initialized = true ∨ g.obstacle? backend = none
  new : (f.status σ.world.statuses).initialized = false
  obstacle : f.obstacle? backend = some e
  cause : f.Cause backend e
  /-- What is known about the stage before when it is asked to derive the one that fails. -/
  derivation : ∀ n o kind previous, f = .filter n o kind previous → ∀ own : Status,
    (own.derive (previous.status (s.prepare backend σ.world.statuses).2) backend kind).1 = .error e
  /-- The stages before are ready at once, the others never, whatever is done. -/
  later : ∀ ds σ', Course backend (σ.at_ (σ.world.changing (s.prepare backend)).2) ds σ' →
    (∀ g ∈ before, (g.status σ'.world.statuses).initialized = true) ∧
      ∀ g ∈ f :: behind, g.Unusable σ'.world.statuses ∧
        (g.prepare backend σ'.world.statuses).1 = .error e
  /-- Where the schema is at fault, a backend is asked for the sake of the stages before only. -/
  unasked : f.request? backend = none → ∀ backend' : Backend,
    (∀ g ∈ before, ∀ q, g.request? backend = some q →
      backend'.acquire q.1 q.2 = backend.acquire q.1 q.2) →
        s.prepare backend' σ.world.statuses = s.prepare backend σ.world.statuses

variable {backend : Backend} {σ : Setting} {s : Stage} {e : Failure}

theorem allSettled_of_reachable (h : σ.Reachable backend) :
    Stage.AllSettled backend True σ.stages σ.world.statuses := by
  obtain ⟨drawn, ds, hcourse⟩ := h
  exact hcourse.allSettled.mono fun _ => trivial

theorem unusable_of_hindrance? (hreach : σ.Reachable backend) (hs : s ∈ σ.stages)
    (h : s.hindrance? backend = some e) :
    s.Unusable σ.world.statuses ∧ (s.prepare backend σ.world.statuses).1 = .error e := by
  have hfamily := (sound_of_reachable hreach).family
  have hall := allSettled_of_reachable hreach
  have hnew := hall.new_of_hindrance? hfamily hs h
  refine ⟨Stage.unusable_of_new (hall s hs).agrees hnew, ?_⟩
  rw [hall.prepare_fst hfamily hs hnew, h]

/-- If a new stage cannot be prepared, the failure is the first obstacle along its chain. -/
theorem exists_refusal (hreach : σ.Reachable backend) (hs : s ∈ σ.stages)
    (hnew : (s.status σ.world.statuses).initialized = false)
    (hfailed : (s.prepare backend σ.world.statuses).1 = .error e) :
    ∃ before f behind, σ.Refusal backend s e before f behind := by
  have hfamily := (sound_of_reachable hreach).family
  have hall := allSettled_of_reachable hreach
  have hhindrance : s.hindrance? backend = some e := by
    rw [hall.prepare_fst hfamily hs hnew] at hfailed
    split at hfailed
    · next hhindrance =>
      cases hfailed
      exact hhindrance
    · cases hfailed
  obtain ⟨before, f, behind, hchain, hobstacle, hfree⟩ :=
    Stage.hindrance?_eq_some_iff.mp hhindrance
  have hmem : ∀ g ∈ before ++ f :: behind, g ∈ σ.stages := by
    intro g hg
    exact hfamily.mem_of_mem_chain hs (hchain ▸ hg)
  have hbehind : ∀ g ∈ f :: behind, g.hindrance? backend = some e := by
    intro g hg
    exact Stage.hindrance?_of_mem_behind hchain hobstacle hfree hg
  have hready : ∀ g ∈ before,
      (g.status (s.prepare backend σ.world.statuses).2).initialized = true := by
    intro g hg
    rw [← Stage.ensure_of_new hnew,
      hall.initialized_ensure_iff hfamily hs (hchain ▸ List.mem_append_left _ hg)]
    exact Stage.hindrance?_of_mem_before hchain hfree hg
  have hf : f ∈ s.chain := by
    rw [hchain]
    exact List.mem_append_right _ (List.mem_cons_self ..)
  refine ⟨before, f, behind, hchain, fun g hg => .inr (hfree g hg), ?_, hobstacle,
    Stage.cause_of_obstacle hobstacle, ?_, ?_, ?_⟩
  · exact hall.new_of_hindrance? hfamily (hfamily.mem_of_mem_chain hs hf)
      (hbehind f (List.mem_cons_self ..))
  · rintro n o kind previous rfl own
    have hprevious : previous ∈ before := by
      have hfirst := Stage.chain_of_split hchain
      have hlast := List.append_inj_left' hfirst rfl
      exact hlast ▸ Stage.self_mem_chain previous
    have hsettled := hall.prepare hfamily hs
    have hagrees := (hsettled previous (hmem _ (List.mem_append_left _ hprevious))).agrees
    rw [Status.derive_fst, hagrees.obstacle?_eq (hready previous hprevious) n o kind, hobstacle]
  · intro ds σ' hcourse
    have hallowed : (Deed.prepare s).Allowed σ :=
      ⟨fun _ hg => List.mem_singleton.mp hg ▸ hs, nofun⟩
    have hreach' := hreach.course (.snoc .nil hallowed)
    constructor
    · intro g hg
      exact hcourse.initialized (sound_of_reachable hreach')
        (hmem g (List.mem_append_left _ hg)) (hready g hg)
    · intro g hg
      exact unusable_of_hindrance? (hreach'.course hcourse)
        (hcourse.mem_stages (hmem g (List.mem_append_right _ hg))) (hbehind g hg)
  · intro hunasked backend' hsame
    rw [← Stage.ensure_of_new hnew, ← Stage.ensure_of_new hnew]
    apply hall.ensure_congr_of_obstacle hfamily hs hf hobstacle
    intro g hg q hq
    rw [Stage.chain_of_split hchain] at hg
    rcases List.mem_append.mp hg with hg | hg
    · exact hsame g hg q hq
    · rw [List.mem_singleton.mp hg, hunasked] at hq
      cases hq

/-- No system has the name of the output reference; the ramp before the reprojection is ready
nevertheless. -/
theorem refusal_of_ramp :
    ∃ before f behind, (pair (.ramp 2) (.rampTo 2 "T:NOWHERE")).Refusal Local.backend
      (.rampTo 2 "T:NOWHERE")
      (.importFailed .output "T:NOWHERE" "Invalid projection: T:NOWHERE") before f behind :=
  exists_refusal (reachable_pair Local.backend rfl rfl rfl rfl) (List.mem_cons_self ..) rfl rfl

end Setting

end PointStream

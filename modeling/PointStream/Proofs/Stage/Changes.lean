import PointStream.Proofs.Stage.Chain
import Mathlib.Logic.Relation

namespace PointStream

namespace Stage

/-- A change of the status of one stage: a source is set up, a filter is derived from an initialized
stage before it, or the box of a filter is transformed. -/
inductive Change (backend : Backend) (statuses : Statuses) : Stage → Statuses → Prop
  | setUp (n : Nat) (o : Options) (kind : SourceKind)
    (h : (statuses.get n).initialized = false) :
    Change backend statuses (.source n o kind)
      (statuses.set n
        { (match kind with
          | .generated g => (statuses.get n).ofGenerator g
          | .plain _ => statuses.get n) with initialized := true })
  | derive (n : Nat) (o : Options) (kind : FilterKind) (previous : Stage)
    (h : (statuses.get n).initialized = false)
    (hprevious : (previous.status statuses).initialized = true) :
    Change backend statuses (.filter n o kind previous)
      (statuses.set n
        (Status.settle ((statuses.get n).derive (previous.status statuses) backend kind)))
  | update (s : Stage) (t : Transform) (h : s.transform statuses = .ok t) :
    Change backend statuses s
      (statuses.modify s.number fun own =>
        { own with bounds := Status.transformBounds t own.bounds })

/-- A row of changes of the statuses of some stages. -/
def Changes (backend : Backend) (stages : List Stage) : Statuses → Statuses → Prop :=
  Relation.ReflTransGen fun statuses statuses' =>
    ∃ s ∈ stages, Change backend statuses s statuses'

/-- A row of changes of stages that are not initialized when they are changed. -/
def Preparations (backend : Backend) (stages : List Stage) : Statuses → Statuses → Prop :=
  Relation.ReflTransGen fun statuses statuses' =>
    ∃ s ∈ stages, (s.status statuses).initialized = false ∧ Change backend statuses s statuses'

/-- Whether the numbers of a chain ascend. -/
def Ascending : Stage → Prop
  | filter n _ _ previous => previous.number < n ∧ previous.Ascending
  | _ => True

/-- Prepares a stage if that is still to be done. -/
def ensure (backend : Backend) (s : Stage) (statuses : Statuses) : Except Failure Unit × Statuses :=
  if (s.status statuses).initialized then (.ok (), statuses) else s.prepare backend statuses

variable {backend : Backend} {statuses statuses' : Statuses} {s f : Stage} {stages : List Stage}
  {n : Nat}

theorem number_le_of_mem_chain (h : s.Ascending) (hf : f ∈ s.chain) : f.number ≤ s.number := by
  induction s with
  | source n o kind => exact Nat.le_of_eq (congrArg number (List.mem_singleton.mp hf))
  | loose n o kind given => exact Nat.le_of_eq (congrArg number (List.mem_singleton.mp hf))
  | filter n o kind previous ih =>
      rcases List.mem_append.mp hf with hf | hf
      · exact Nat.le_trans (ih h.2 hf) (Nat.le_of_lt h.1)
      · exact Nat.le_of_eq (congrArg number (List.mem_singleton.mp hf))

theorem Change.get_eq (h : Change backend statuses s statuses') (hn : n ≠ s.number) :
    statuses'.get n = statuses.get n := by
  cases h with
  | setUp m o kind _ => exact (Table.get_set ..).trans (if_neg hn)
  | derive m o kind previous _ _ => exact (Table.get_set ..).trans (if_neg hn)
  | update _ t _ => exact (Table.get_modify ..).trans (if_neg hn)

theorem Changes.get_eq (h : Changes backend stages statuses statuses')
    (hn : ∀ s ∈ stages, n ≠ s.number) : statuses'.get n = statuses.get n := by
  induction h with
  | refl => rfl
  | tail _ hchange ih =>
      obtain ⟨s, hs, hchange⟩ := hchange
      exact (hchange.get_eq (hn s hs)).trans ih

theorem Changes.mono {stages' : List Stage} (h : Changes backend stages statuses statuses')
    (hsub : ∀ s ∈ stages, s ∈ stages') : Changes backend stages' statuses statuses' :=
  Relation.ReflTransGen.mono (fun _ _ ⟨s, hs, hchange⟩ => ⟨s, hsub s hs, hchange⟩) _ _ h

theorem Change.changes (h : Change backend statuses s statuses') (hs : s ∈ stages) :
    Changes backend stages statuses statuses' :=
  .single ⟨s, hs, h⟩

theorem Preparations.changes (h : Preparations backend stages statuses statuses') :
    Changes backend stages statuses statuses' :=
  Relation.ReflTransGen.mono (fun _ _ ⟨s, hs, _, hchange⟩ => ⟨s, hs, hchange⟩) _ _ h

theorem Preparations.mono {stages' : List Stage}
    (h : Preparations backend stages statuses statuses') (hsub : ∀ s ∈ stages, s ∈ stages') :
    Preparations backend stages' statuses statuses' :=
  Relation.ReflTransGen.mono (fun _ _ ⟨s, hs, hchange⟩ => ⟨s, hsub s hs, hchange⟩) _ _ h

theorem Change.preparations (h : Change backend statuses s statuses') (hs : s ∈ stages)
    (hnew : (s.status statuses).initialized = false) :
    Preparations backend stages statuses statuses' :=
  .single ⟨s, hs, hnew, h⟩

theorem initialized_settle {derived : Except Failure Unit × Status} (h : derived.1 = .ok ()) :
    (Status.settle derived).initialized = true := by
  simp only [Status.settle, h]

theorem ensure_of_initialized (h : (s.status statuses).initialized = true) :
    s.ensure backend statuses = (.ok (), statuses) :=
  if_pos h

theorem ensure_of_new (h : (s.status statuses).initialized = false) :
    s.ensure backend statuses = s.prepare backend statuses :=
  if_neg (Bool.eq_false_iff.mp h)

theorem prepare_of_initialized (h : (s.status statuses).initialized = true) :
    s.prepare backend statuses = (.error (.alreadyInitialized s.typeName), statuses) := by
  cases s <;> exact if_pos h

theorem prepare_source {o : Options} {kind : SourceKind}
    (h : (statuses.get n).initialized = false) :
    (source n o kind).prepare backend statuses =
      (.ok (), statuses.set n
        { (match kind with
          | .generated g => (statuses.get n).ofGenerator g
          | .plain _ => statuses.get n) with initialized := true }) :=
  if_neg (Bool.eq_false_iff.mp h)

theorem prepare_loose {o : Options} {kind : FilterKind} {given : Option Value}
    (h : (statuses.get n).initialized = false) :
    (loose n o kind given).prepare backend statuses =
      (.error (if given.isSome then .noSuchProperty else .sourceRequired kind.typeName),
        statuses) := by
  unfold prepare
  rw [if_neg (Bool.eq_false_iff.mp h)]
  cases given <;> rfl

theorem prepare_filter {o : Options} {kind : FilterKind} {previous : Stage}
    (h : (statuses.get n).initialized = false) :
    (filter n o kind previous).prepare backend statuses =
      match previous.ensure backend statuses with
      | (.error e, ready) => (.error e, ready)
      | (.ok (), ready) =>
        (((ready.get n).derive (previous.status ready) backend kind).1,
          ready.set n
            (Status.settle ((ready.get n).derive (previous.status ready) backend kind))) := by
  unfold prepare
  rw [if_neg (Bool.eq_false_iff.mp h)]
  dsimp only
  rw [show (if (statuses.get previous.number).initialized then (.ok (), statuses)
    else previous.prepare backend statuses) = previous.ensure backend statuses from rfl]
  rcases previous.ensure backend statuses with ⟨_ | _, ready⟩ <;> rfl

theorem initialized_of_prepare (h : (s.prepare backend statuses).1 = .ok ()) :
    (s.status (s.prepare backend statuses).2).initialized = true := by
  cases hnew : (s.status statuses).initialized with
  | true =>
      rw [prepare_of_initialized hnew] at h
      cases h
  | false =>
      cases s with
      | source n o kind =>
          rw [prepare_source (n := n) hnew, status, number, Table.get_set, if_pos rfl]
      | loose n o kind given =>
          rw [prepare_loose (n := n) hnew] at h
          cases h
      | filter n o kind previous =>
          rw [prepare_filter (n := n) hnew] at h ⊢
          split at h
          · cases h
          · rw [status, number, Table.get_set, if_pos rfl]
            exact initialized_settle h

theorem initialized_ensure (h : (s.ensure backend statuses).1 = .ok ()) :
    (s.status (s.ensure backend statuses).2).initialized = true := by
  cases hown : (s.status statuses).initialized with
  | true =>
      rw [ensure_of_initialized hown]
      exact hown
  | false =>
      rw [ensure_of_new hown] at h ⊢
      exact initialized_of_prepare h

/-- To prepare a stage is a row of changes of its chain, each of a stage that is still new. -/
theorem preparations_prepare (h : s.Ascending) :
    Preparations backend s.chain statuses (s.prepare backend statuses).2 := by
  cases hnew : (s.status statuses).initialized with
  | true =>
      rw [prepare_of_initialized hnew]
      exact .refl
  | false =>
      induction s with
      | source n o kind =>
          rw [prepare_source (n := n) hnew]
          exact (Change.setUp n o kind hnew).preparations (List.mem_singleton.mpr rfl) hnew
      | loose n o kind given =>
          rw [prepare_loose (n := n) hnew]
          exact .refl
      | filter n o kind previous ih =>
          have hbefore : Preparations backend previous.chain statuses
              (previous.ensure backend statuses).2 := by
            cases hprevious : (previous.status statuses).initialized with
            | true =>
                rw [ensure_of_initialized hprevious]
                exact .refl
            | false =>
                rw [ensure_of_new hprevious]
                exact ih h.2 hprevious
          have hmore : Preparations backend (filter n o kind previous).chain statuses
              (previous.ensure backend statuses).2 :=
            hbefore.mono fun f hf => List.mem_append_left _ hf
          rw [prepare_filter (n := n) hnew]
          split
          · next hensure =>
            rw [hensure] at hmore
            exact hmore
          · next ready hensure =>
            have hready : (previous.status (previous.ensure backend statuses).2).initialized = true :=
              initialized_ensure (congrArg Prod.fst hensure)
            rw [hensure] at hmore hbefore hready
            -- The stages before have smaller numbers, so this one is as new as it was.
            have hkept : (ready.get n).initialized = false := by
              rw [hbefore.changes.get_eq fun f hf => ?_]
              · exact hnew
              · have hle := number_le_of_mem_chain h.2 hf
                exact Nat.ne_of_gt (Nat.lt_of_le_of_lt hle h.1)
            exact hmore.trans
              ((Change.derive n o kind previous hkept hready).preparations (self_mem_chain _) hkept)

theorem preparations_ensure (h : s.Ascending) :
    Preparations backend s.chain statuses (s.ensure backend statuses).2 := by
  unfold ensure
  split
  · exact .refl
  · exact preparations_prepare h

theorem changes_prepare (h : s.Ascending) :
    Changes backend s.chain statuses (s.prepare backend statuses).2 :=
  (preparations_prepare h).changes

theorem changes_updateBounds :
    Changes backend [s] statuses (s.updateBounds statuses).2 := by
  unfold updateBounds
  split
  · exact .refl
  · next t ht => exact (Change.update s t ht).changes (List.mem_singleton.mpr rfl)

end Stage

end PointStream

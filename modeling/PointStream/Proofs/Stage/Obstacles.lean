import PointStream.Proofs.Stage.Settled

namespace PointStream

namespace Stage

/-- The first obstacle along a chain. -/
def hindrance? (backend : Backend) (s : Stage) : Option Failure :=
  s.chain.findSome? (obstacle? backend)

/-- Whether preparing a stage comes to prepare another one, and succeeds with that one. -/
inductive Readies (backend : Backend) (statuses : Statuses) : Stage → Stage → Prop
  | self {s : Stage} (h : (s.prepare backend statuses).1 = .ok ()) :
    Readies backend statuses s s
  | before {n : Nat} {o : Options} {kind : FilterKind} {previous f : Stage}
    (hnew : (statuses.get n).initialized = false)
    (hprevious : (previous.status statuses).initialized = false)
    (h : Readies backend statuses previous f) :
    Readies backend statuses (filter n o kind previous) f

section Chains

variable {backend : Backend} {s f g : Stage} {before behind : List Stage} {e : Failure}

theorem hindrance?_filter {n : Nat} {o : Options} {kind : FilterKind} {previous : Stage} :
    (filter n o kind previous).hindrance? backend =
      (previous.hindrance? backend).or ((filter n o kind previous).obstacle? backend) := by
  rw [hindrance?, chain, List.findSome?_append, List.findSome?_singleton]
  rfl

theorem hindrance?_source {n : Nat} {o : Options} {kind : SourceKind} :
    (source n o kind).hindrance? backend = none :=
  rfl

theorem hindrance?_loose {n : Nat} {o : Options} {kind : FilterKind} {given : Option Value} :
    (loose n o kind given).hindrance? backend = (loose n o kind given).obstacle? backend := by
  cases given <;> rfl

theorem chain_of_split (h : s.chain = before ++ f :: behind) : f.chain = before ++ [f] := by
  induction s generalizing behind with
  | source n o kind =>
      rcases before with _ | ⟨g, before⟩
      · cases h
        rfl
      · exact absurd (congrArg List.tail h).symm (by simp [chain])
  | loose n o kind given =>
      rcases before with _ | ⟨g, before⟩
      · cases h
        rfl
      · exact absurd (congrArg List.tail h).symm (by simp [chain])
  | filter n o kind previous ih =>
      rcases List.eq_nil_or_concat behind with rfl | ⟨behind, last, rfl⟩
      · obtain ⟨rfl, hlast⟩ := List.append_inj' h rfl
        cases hlast
        rfl
      · rw [chain, List.concat_eq_append, ← List.cons_append, ← List.append_assoc] at h
        exact ih (List.append_inj' h rfl).1

theorem hindrance?_eq_none_iff :
    s.hindrance? backend = none ↔ ∀ f ∈ s.chain, f.obstacle? backend = none :=
  List.findSome?_eq_none_iff

theorem hindrance?_eq_some_iff :
    s.hindrance? backend = some e ↔ ∃ before f behind, s.chain = before ++ f :: behind ∧
      f.obstacle? backend = some e ∧ ∀ g ∈ before, g.obstacle? backend = none :=
  List.findSome?_eq_some_iff

variable (h : s.chain = before ++ f :: behind)

include h

theorem hindrance?_of_mem_before (hfree : ∀ g ∈ before, g.obstacle? backend = none)
    (hg : g ∈ before) : g.hindrance? backend = none := by
  obtain ⟨first, last, rfl⟩ := List.append_of_mem hg
  rw [List.append_assoc, List.cons_append] at h
  rw [hindrance?_eq_none_iff, chain_of_split h]
  intro f hf
  apply hfree
  rcases List.mem_append.mp hf with hf | hf
  · exact List.mem_append_left _ hf
  · exact List.mem_append_right _ (List.mem_singleton.mp hf ▸ List.mem_cons_self ..)

theorem hindrance?_of_mem_behind (hobstacle : f.obstacle? backend = some e)
    (hfree : ∀ g ∈ before, g.obstacle? backend = none) (hg : g ∈ f :: behind) :
    g.hindrance? backend = some e := by
  rw [hindrance?_eq_some_iff]
  rcases List.mem_cons.mp hg with rfl | hg
  · exact ⟨before, g, [], chain_of_split h, hobstacle, hfree⟩
  · obtain ⟨first, last, rfl⟩ := List.append_of_mem hg
    rw [← List.cons_append, ← List.append_assoc] at h
    refine ⟨before, f, first ++ [g], ?_, hobstacle, hfree⟩
    rw [chain_of_split h, List.append_assoc, List.cons_append]

end Chains

theorem AllSettled.inOrder {backend : Backend} {updated : Prop} {stages : List Stage}
    {statuses : Statuses} (hall : AllSettled backend updated stages statuses) :
    InOrder stages statuses :=
  fun s hs h => (hall s hs).previous h

namespace AllSettled

variable {backend backend' : Backend} {updated : Prop} {stages : List Stage} {statuses : Statuses}
  {s f : Stage} {e : Failure} (hfamily : Family stages)
  (hall : AllSettled backend updated stages statuses) (hs : s ∈ stages)

include hfamily hall hs

theorem prepare : AllSettled backend updated stages (s.prepare backend statuses).2 :=
  hall.preparations hfamily ((preparations_prepare (hfamily.ascending s hs)).mono
    fun _ hf => hfamily.mem_of_mem_chain hs hf)

theorem ensure : AllSettled backend updated stages (s.ensure backend statuses).2 :=
  hall.preparations hfamily ((preparations_ensure (hfamily.ascending s hs)).mono
    fun _ hf => hfamily.mem_of_mem_chain hs hf)

theorem hindrance?_of_initialized (h : (s.status statuses).initialized = true) :
    s.hindrance? backend = none := by
  rw [hindrance?_eq_none_iff]
  intro f hf
  have hready := hall.inOrder.initialized_chain hfamily hs h f hf
  exact (hall f (hfamily.mem_of_mem_chain hs hf)).agrees.obstacle hready

theorem new_of_hindrance? (h : s.hindrance? backend = some e) :
    (s.status statuses).initialized = false := by
  rw [← Bool.not_eq_true]
  intro hready
  rw [hall.hindrance?_of_initialized hfamily hs hready] at h
  cases h

/-- A stage can be made ready just if nothing hinders it; what hinders it first is the failure. -/
theorem ensure_fst :
    (s.ensure backend statuses).1 =
      match s.hindrance? backend with
      | some e => .error e
      | none => .ok () := by
  induction s with
  | source n o kind =>
      cases hnew : (statuses.get n).initialized with
      | true => rw [ensure_of_initialized (s := source n o kind) hnew, hindrance?_source]
      | false =>
          rw [ensure_of_new (s := source n o kind) hnew, prepare_source hnew, hindrance?_source]
  | loose n o kind given =>
      cases hnew : (statuses.get n).initialized with
      | true =>
          rw [ensure_of_initialized (s := loose n o kind given) hnew,
            hall.hindrance?_of_initialized hfamily hs hnew]
      | false =>
          rw [ensure_of_new (s := loose n o kind given) hnew, prepare_loose hnew, hindrance?_loose]
          cases given <;> rfl
  | filter n o kind previous ih =>
      have hprevious := hfamily.previous _ hs previous rfl
      cases hnew : (statuses.get n).initialized with
      | true =>
          rw [ensure_of_initialized (s := filter n o kind previous) hnew,
            hall.hindrance?_of_initialized hfamily hs hnew]
      | false =>
          rw [ensure_of_new (s := filter n o kind previous) hnew, prepare_filter hnew,
            hindrance?_filter]
          have hensure := ih hprevious
          have hready : (previous.ensure backend statuses).1 = .ok () → _ := initialized_ensure
          have hsettled := hall.ensure hfamily hprevious
          cases hhindrance : previous.hindrance? backend with
          | some e =>
              rw [hhindrance] at hensure
              rw [show previous.ensure backend statuses = (.error e, _) from Prod.ext hensure rfl]
              rfl
          | none =>
              rw [hhindrance] at hensure
              have hagrees := (hsettled previous hprevious).agrees
              have hobstacle := hagrees.obstacle?_eq (hready hensure) n o kind
              rw [show previous.ensure backend statuses = (.ok (), _) from Prod.ext hensure rfl]
              change (Status.derive ..).1 = _
              rw [Status.derive_fst, hobstacle]
              rfl

theorem prepare_fst (hnew : (s.status statuses).initialized = false) :
    (s.prepare backend statuses).1 =
      match s.hindrance? backend with
      | some e => .error e
      | none => .ok () := by
  rw [← ensure_of_new hnew]
  exact hall.ensure_fst hfamily hs

theorem initialized_ensure_iff (hf : f ∈ s.chain) :
    (f.status (s.ensure backend statuses).2).initialized = true ↔ f.hindrance? backend = none := by
  constructor
  · intro h
    exact (hall.ensure hfamily hs).hindrance?_of_initialized hfamily
      (hfamily.mem_of_mem_chain hs hf) h
  · intro h
    induction s with
    | source n o kind =>
        obtain rfl := List.mem_singleton.mp hf
        apply initialized_ensure
        rw [hall.ensure_fst hfamily hs, h]
    | loose n o kind given =>
        obtain rfl := List.mem_singleton.mp hf
        apply initialized_ensure
        rw [hall.ensure_fst hfamily hs, h]
    | filter n o kind previous ih =>
        rcases List.mem_append.mp hf with hbefore | hself
        · have hprevious := hfamily.previous _ hs previous rfl
          have hready := ih hprevious hbefore
          cases hnew : (statuses.get n).initialized with
          | true =>
              rw [ensure_of_initialized (s := filter n o kind previous) hnew]
              exact hall.inOrder.initialized_chain hfamily hs hnew f hf
          | false =>
              have hle := number_le_of_mem_chain (hfamily.ascending _ hprevious) hbefore
              have hlt : f.number < n := Nat.lt_of_le_of_lt hle (hfamily.ascending _ hs).1
              rw [ensure_of_new (s := filter n o kind previous) hnew, prepare_filter hnew]
              rcases hensure : previous.ensure backend statuses with ⟨_ | _, ready⟩
              · rw [hensure] at hready
                exact hready
              · rw [hensure] at hready
                rw [status, Table.get_set, if_neg (Nat.ne_of_lt hlt)]
                exact hready
        · obtain rfl := List.mem_singleton.mp hself
          apply initialized_ensure
          rw [hall.ensure_fst hfamily hs, h]

/-- To prepare a stage readies just the stages of its chain that were new and are so no more. -/
theorem readies_iff :
    Readies backend statuses s f ↔
      f ∈ s.chain ∧ (f.status statuses).initialized = false ∧ f.hindrance? backend = none := by
  constructor
  · intro h
    induction h with
    | @self s h =>
        have hnew : (s.status statuses).initialized = false := by
          rw [← Bool.not_eq_true]
          intro hready
          rw [prepare_of_initialized hready] at h
          cases h
        refine ⟨self_mem_chain s, hnew, ?_⟩
        rw [hall.prepare_fst hfamily hs hnew] at h
        split at h
        · cases h
        · assumption
    | @before n o kind previous f hnew hprevious h ih =>
        obtain ⟨hmem, hrest⟩ := ih (hfamily.previous _ hs previous rfl)
        exact ⟨List.mem_append_left _ hmem, hrest⟩
  · rintro ⟨hmem, hnew, hfree⟩
    have hself (hsf : f = s) : Readies backend statuses s f := by
      subst hsf
      apply Readies.self
      rw [hall.prepare_fst hfamily hs hnew, hfree]
    induction s with
    | source n o kind => exact hself (List.mem_singleton.mp hmem)
    | loose n o kind given => exact hself (List.mem_singleton.mp hmem)
    | filter n o kind previous ih =>
        rcases List.mem_append.mp hmem with hbefore | hlast
        · have hprevious := hfamily.previous _ hs previous rfl
          have hnot (t : Stage) (ht : t ∈ stages) (hchain : f ∈ t.chain) :
              (t.status statuses).initialized = false := by
            rw [← Bool.not_eq_true]
            intro hready
            have hready := hall.inOrder.initialized_chain hfamily ht hready f hchain
            exact Bool.noConfusion (hnew.symm.trans hready)
          refine .before (hnot _ hs hmem) (hnot previous hprevious hbefore)
            (ih hprevious hbefore ?_)
          rintro rfl
          apply Readies.self
          rw [hall.prepare_fst hfamily hprevious hnew, hfree]
        · exact hself (List.mem_singleton.mp hlast)

theorem ensure_congr (hsame : ∀ f ∈ s.chain, ∀ q, f.request? backend = some q →
    backend'.acquire q.1 q.2 = backend.acquire q.1 q.2) :
    s.ensure backend' statuses = s.ensure backend statuses := by
  induction s with
  | source n o kind => rfl
  | loose n o kind given => rfl
  | filter n o kind previous ih =>
      have hprevious := hfamily.previous _ hs previous rfl
      have hbefore := ih hprevious fun f hf => hsame f (List.mem_append_left _ hf)
      cases hnew : (statuses.get n).initialized with
      | true =>
          rw [ensure_of_initialized (s := filter n o kind previous) hnew,
            ensure_of_initialized (s := filter n o kind previous) hnew]
      | false =>
          rw [ensure_of_new (s := filter n o kind previous) hnew,
            ensure_of_new (s := filter n o kind previous) hnew, prepare_filter hnew,
            prepare_filter hnew, hbefore]
          have hready : (previous.ensure backend statuses).1 = .ok () → _ := initialized_ensure
          have hsettled := hall.ensure hfamily hprevious
          generalize previous.ensure backend statuses = outcome at hready hsettled ⊢
          rcases outcome with ⟨_ | _, ready⟩
          · rfl
          · have hderive (own : Status) : own.derive (previous.status ready) backend' kind =
                own.derive (previous.status ready) backend kind := by
              apply Status.derive_congr
              rw [(hsettled previous hprevious).agrees.metadata (hready rfl)]
              exact hsame _ (self_mem_chain _)
            simp only [hderive]

theorem ensure_congr_of_obstacle (hf : f ∈ s.chain) (hobstacle : f.obstacle? backend = some e)
    (hsame : ∀ g ∈ f.chain, ∀ q, g.request? backend = some q →
      backend'.acquire q.1 q.2 = backend.acquire q.1 q.2) :
    s.ensure backend' statuses = s.ensure backend statuses := by
  induction s with
  | source n o kind =>
      rw [List.mem_singleton.mp hf] at hobstacle
      cases hobstacle
  | loose n o kind given => rfl
  | filter n o kind previous ih =>
      rcases List.mem_append.mp hf with hbefore | hlast
      · have hprevious := hfamily.previous _ hs previous rfl
        have hensure := hall.ensure_fst hfamily hprevious
        cases hhindrance : previous.hindrance? backend with
        | none =>
            rw [hindrance?_eq_none_iff.mp hhindrance f hbefore] at hobstacle
            cases hobstacle
        | some e' =>
            have hnew : (statuses.get n).initialized = false := by
              apply hall.new_of_hindrance? hfamily hs
              rw [hindrance?_filter, hhindrance]
              rfl
            rw [ensure_of_new (s := filter n o kind previous) hnew,
              ensure_of_new (s := filter n o kind previous) hnew, prepare_filter hnew,
              prepare_filter hnew, ih hprevious hbefore]
            rw [hhindrance] at hensure
            generalize previous.ensure backend statuses = outcome at hensure ⊢
            rcases outcome with ⟨_ | _, ready⟩
            · rfl
            · cases hensure
      · obtain rfl := List.mem_singleton.mp hlast
        exact hall.ensure_congr hfamily hs hsame

end AllSettled

end Stage

end PointStream

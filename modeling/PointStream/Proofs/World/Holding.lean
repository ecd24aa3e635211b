import PointStream.Proofs.World.Course

namespace PointStream

theorem Failure.ofPrecondition_of_ofTransform {e : Failure} (h : e.ofTransform = true) :
    e.ofPrecondition = false := by
  cases e <;> first | rfl | cases h

namespace Stage

/-- Whether a stage holds a transform. -/
def IsOpen (statuses : Statuses) (s : Stage) : Prop :=
  ∃ t, s.transform statuses = .ok t

variable {backend : Backend} {updated : Prop} {stages : List Stage} {statuses statuses' : Statuses}
  {s f : Stage} {n : Nat}

theorem isOpen_iff (hkind : s.isReprojection = true) :
    s.IsOpen statuses ↔ (s.status statuses).transform.isSome = true := by
  unfold IsOpen transform
  rw [hkind]
  cases (s.status statuses).transform with
  | none => exact ⟨nofun, nofun⟩
  | some t => exact ⟨fun _ => rfl, fun _ => ⟨t, rfl⟩⟩

theorem transform_of_not_isOpen (hkind : s.isReprojection = true) (h : ¬s.IsOpen statuses) :
    s.transform statuses = .error (.noTransform s.typeName) := by
  unfold IsOpen at h
  unfold transform at h ⊢
  rw [hkind] at h ⊢
  cases hown : (s.status statuses).transform with
  | none => rfl
  | some t =>
      rw [hown] at h
      exact absurd ⟨t, rfl⟩ h

theorem project_refused_iff (hkind : s.isReprojection = true) (p : Point) :
    (∃ e, s.project statuses p = .error e ∧ e.ofPrecondition = true) ↔ ¬s.IsOpen statuses := by
  constructor
  · rintro ⟨e, hproject, hclass⟩ ⟨t, ht⟩
    rw [project, ht] at hproject
    dsimp only [Transform.project] at hproject
    split at hproject
    · cases hproject
    · cases hproject
      cases hclass
  · intro h
    rw [project, transform_of_not_isOpen hkind h]
    exact ⟨_, rfl, rfl⟩

theorem reprojectBuffer_refused_iff (hkind : s.isReprojection = true) (b : Buffer) :
    (∃ e, s.reprojectBuffer statuses b = .error e ∧ e.ofPrecondition = true) ↔
      ¬s.IsOpen statuses := by
  constructor
  · rintro ⟨e, hproject, hclass⟩ ⟨t, ht⟩
    rw [reprojectBuffer, ht] at hproject
    dsimp only [Buffer.reproject] at hproject
    split at hproject
    · cases hproject
    · split at hproject
      · next hcolumns =>
        cases hproject
        obtain ⟨d, rfl⟩ := Buffer.coordinateColumns_eq_error hcolumns
        cases hclass
      · split at hproject
        · cases hproject
        · cases hproject
          rw [Failure.ofPrecondition_of_ofTransform (t.ofTransform_rowFailure ..)] at hclass
          cases hclass
  · intro h
    rw [reprojectBuffer, transform_of_not_isOpen hkind h]
    exact ⟨_, rfl, rfl⟩

theorem Preparations.get_of_initialized (h : Preparations backend stages statuses statuses')
    (hready : (statuses.get n).initialized = true) : statuses'.get n = statuses.get n := by
  induction h with
  | refl => rfl
  | tail _ hchange ih =>
      obtain ⟨s, _, hnew, hchange⟩ := hchange
      rw [hchange.get_eq, ih]
      rintro rfl
      rw [status, ih, hready] at hnew
      cases hnew

namespace AllSettled

variable (hfamily : Family stages) (hall : AllSettled backend updated stages statuses)
  (hs : s ∈ stages)

include hfamily hall hs

theorem transform_of_readies (hkind : f.isReprojection = true)
    (h : Readies backend statuses s f) :
    (f.status (s.prepare backend statuses).2).transform.isSome = true := by
  induction h with
  | @self f h =>
      cases hnew : (f.status statuses).initialized with
      | true =>
          rw [prepare_of_initialized hnew] at h
          cases h
      | false =>
          cases f with
          | source n o kind => cases hkind
          | loose n o kind given =>
              rw [prepare_loose (n := n) hnew] at h
              cases h
          | filter n o kind previous =>
              cases kind with
              | plain p => cases hkind
              | reprojection r =>
                  rw [prepare_filter (n := n) hnew] at h ⊢
                  split at h
                  · cases h
                  · next ready _ =>
                    have hderive := Status.derive_eq (ready.get n) (previous.status ready) backend
                      (.reprojection r)
                    dsimp only at h
                    split at hderive
                    · obtain ⟨own', heq, _⟩ := hderive
                      rw [heq] at h
                      cases h
                    · obtain ⟨own', heq, _, _, hacquired⟩ := hderive
                      obtain ⟨t, ht, _⟩ := hacquired r rfl
                      rw [status, number, Table.get_set, if_pos rfl, heq]
                      change own'.transform.isSome = true
                      rw [ht]
                      rfl
  | @before n o kind previous f hnew hprevious h ih =>
      have hmem := hfamily.previous _ hs previous rfl
      have hopen := ih hmem hkind
      have hchain := ((hall.readies_iff hfamily hmem).mp h).1
      have hle := number_le_of_mem_chain (hfamily.ascending _ hmem) hchain
      have hlt : f.number < n := Nat.lt_of_le_of_lt hle (hfamily.ascending _ hs).1
      rw [← ensure_of_new hprevious] at hopen
      rw [prepare_filter hnew]
      split
      · next hensure =>
        rw [hensure] at hopen
        exact hopen
      · next hensure =>
        rw [hensure] at hopen
        rw [status, Table.get_set, if_neg (Nat.ne_of_lt hlt)]
        exact hopen

theorem transform_of_not_readies (hf : f ∈ stages) (h : ¬Readies backend statuses s f) :
    (f.status (s.prepare backend statuses).2).transform = (f.status statuses).transform := by
  have hpreparations : Preparations backend s.chain statuses (s.prepare backend statuses).2 :=
    preparations_prepare (hfamily.ascending s hs)
  cases hnew : (f.status statuses).initialized with
  | true =>
      have hkept := hpreparations.get_of_initialized hnew
      exact congrArg Status.transform hkept
  | false =>
      have hsettled := hall.prepare hfamily hs
      have hnew' : (f.status (s.prepare backend statuses).2).initialized = false := by
        rw [← Bool.not_eq_true]
        intro hready
        apply h
        rw [hall.readies_iff hfamily hs]
        refine ⟨?_, hnew, hsettled.hindrance?_of_initialized hfamily hf hready⟩
        by_contra hchain
        have hkept : f.status (s.prepare backend statuses).2 = f.status statuses := by
          apply hpreparations.changes.get_eq
          rintro g hg hnumber
          have hmem := hfamily.mem_of_mem_chain hs hg
          exact hchain (hfamily.unique f hf g hmem hnumber ▸ hg)
        rw [hkept, hnew] at hready
        cases hready
      rw [(hsettled f hf).agrees.transform_new hnew', (hall f hf).agrees.transform_new hnew]

theorem transform_preparing_iff (hf : f ∈ stages) (hkind : f.isReprojection = true) :
    (f.status (s.prepare backend statuses).2).transform.isSome = true ↔
      Readies backend statuses s f ∨ (f.status statuses).transform.isSome = true := by
  by_cases hreadies : Readies backend statuses s f
  · constructor
    · intro _
      exact .inl hreadies
    · intro _
      exact hall.transform_of_readies hfamily hs hkind hreadies
  · rw [hall.transform_of_not_readies hfamily hs hf hreadies]
    exact (or_iff_right hreadies).symm

end AllSettled

theorem transform_closeAll_iff {closing : List Stage} (hfamily : Family stages) (hs : s ∈ stages)
    (hclosing : ∀ f ∈ closing, f ∈ stages) :
    (s.status (closeAll closing statuses)).transform.isSome = true ↔
      (s.status statuses).transform.isSome = true ∧ s ∉ closing := by
  have hnumber : s.number ∈ closing.map number ↔ s ∈ closing := by
    constructor
    · intro hmem
      obtain ⟨f, hf, heq⟩ := List.mem_map.mp hmem
      exact hfamily.unique f (hclosing f hf) s hs heq ▸ hf
    · exact List.mem_map_of_mem
  rw [status, get_closeAll]
  by_cases hmem : s ∈ closing
  · rw [if_pos (hnumber.mpr hmem)]
    exact ⟨fun h => absurd h Bool.false_ne_true, fun h => absurd hmem h.2⟩
  · rw [if_neg (mt hnumber.mp hmem)]
    exact (and_iff_left hmem).symm

theorem transform_updateBounds (s f : Stage) (statuses : Statuses) :
    (f.status (s.updateBounds statuses).2).transform = (f.status statuses).transform := by
  unfold updateBounds
  split
  · rfl
  · exact (get_modify_bounds statuses s.number _ f.number).2.2

end Stage

variable {backend : Backend} {σ σ' : Setting} {d : Deed} {ds ds' : List Deed} {s : Stage}
  {drawn : Nat} {updated : Prop}

namespace Deed

/-- Whether all that a deed does is to close stages. -/
def IsClosing : Deed → Prop
  | close _ => True
  | closePipeline _ => True
  | _ => False

theorem closing_subset (h : s ∈ d.closing) : s ∈ d.stages := by
  cases d <;> first | exact h | cases h

theorem closing_of_pending? {statuses : Statuses} (h : d.pending? statuses = some s) :
    d.closing = [] := by
  cases d <;> first | rfl | cases h

theorem world_of_isClosing (h : d.IsClosing) :
    (d.perform backend σ).world =
      { σ.world with statuses := Stage.closeAll d.closing σ.world.statuses } := by
  cases d with
  | close s => rfl
  | closePipeline p => rfl
  | _ => cases h

theorem not_readies (h : d.pending? σ.world.statuses = none) : ¬d.Readies backend σ s := by
  rintro ⟨t, ht, _⟩
  cases h.symm.trans ht

/-- A stage is open after a deed if it was open before or the deed has readied it, unless the deed
closes it. -/
theorem isOpen_perform_iff (hsound : σ.Sound backend)
    (hall : Stage.AllSettled backend updated σ.stages σ.world.statuses) (hd : d.Allowed σ)
    (hs : s ∈ σ.stages) (hkind : s.isReprojection = true) :
    s.IsOpen (d.perform backend σ).world.statuses ↔
      (d.Readies backend σ s ∨ s.IsOpen σ.world.statuses) ∧ s ∉ d.closing := by
  rw [Stage.isOpen_iff hkind, Stage.isOpen_iff hkind, statuses_perform]
  have hprepared : (s.status (Stage.preparing backend (d.pending? σ.world.statuses)
        σ.world.statuses)).transform.isSome = true ↔
      d.Readies backend σ s ∨ (s.status σ.world.statuses).transform.isSome = true := by
    cases hpending : d.pending? σ.world.statuses with
    | none => exact (or_iff_right (not_readies hpending)).symm
    | some t =>
        have ht := hd.1 t (mem_of_pending? hpending)
        rw [Readies, hpending]
        simp only [Option.some.injEq, exists_eq_left']
        exact hall.transform_preparing_iff hsound.family ht hs hkind
  have hrest : (s.status (Stage.closeAll d.closing (Stage.preparing backend
        (d.pending? σ.world.statuses) σ.world.statuses))).transform.isSome = true ↔
      (d.Readies backend σ s ∨ (s.status σ.world.statuses).transform.isSome = true) ∧
        s ∉ d.closing := by
    rw [← hprepared]
    exact Stage.transform_closeAll_iff hsound.family hs fun f hf => hd.1 f (closing_subset hf)
  -- A stage that is defined, or a box that is updated, is no concern of the transform.
  have hkept {statuses : Statuses} (hpending : d.pending? σ.world.statuses = none)
      (hclosing : d.closing = [])
      (hkept : (s.status statuses).transform = (s.status σ.world.statuses).transform) :
      (s.status statuses).transform.isSome = true ↔ (d.Readies backend σ s ∨
        (s.status σ.world.statuses).transform.isSome = true) ∧ s ∉ d.closing := by
    rw [hkept, hclosing, or_iff_right (not_readies hpending)]
    exact (and_iff_left List.not_mem_nil).symm
  cases d with
  | define t =>
      apply hkept rfl rfl
      rw [Stage.status, Table.get_set, if_neg (Nat.ne_of_lt (hsound.below s hs))]
      rfl
  | updateBounds t => exact hkept rfl rfl (Stage.transform_updateBounds t s σ.world.statuses)
  | _ => exact hrest

theorem readies_iff (hsound : σ.Sound backend)
    (hall : Stage.AllSettled backend updated σ.stages σ.world.statuses) (hd : d.Allowed σ) :
    d.Readies backend σ s ↔ ∃ t, d.pending? σ.world.statuses = some t ∧ t ∈ σ.stages ∧
      s ∈ t.chain ∧ (s.status σ.world.statuses).initialized = false ∧
      s.hindrance? backend = none := by
  constructor
  · rintro ⟨t, ht, hreadies⟩
    have hmem := hd.1 t (mem_of_pending? ht)
    exact ⟨t, ht, hmem, (hall.readies_iff hsound.family hmem).mp hreadies⟩
  · rintro ⟨t, ht, hmem, hrest⟩
    exact ⟨t, ht, (hall.readies_iff hsound.family hmem).mpr hrest⟩

theorem eq_define_of_mem (h : s ∈ (d.perform backend σ).stages) (hs : s ∉ σ.stages) :
    d = define s := by
  cases d with
  | define t =>
      rcases List.mem_cons.mp h with rfl | h
      · rfl
      · exact absurd h hs
  | _ => exact absurd h hs

theorem not_isOpen_define (hd : (define s).Allowed σ) (hkind : s.isReprojection = true) :
    ¬s.IsOpen ((define s).perform backend σ).world.statuses := by
  rw [Stage.isOpen_iff hkind, statuses_perform]
  change ¬((σ.world.statuses.set σ.world.numbers s.initialStatus).get s.number).transform.isSome =
    true
  rw [hd.2 s rfl, Table.get_set, if_pos rfl]
  exact nofun

end Deed

namespace Course

variable {ds₁ ds₂ : List Deed} {σ₁ σ₂ : Setting}

theorem isOpen_of_not_closed (h₁ : Course backend (Setting.start drawn) ds₁ σ)
    (h : Course backend σ ds σ') (hs : s ∈ σ.stages) (hkind : s.isReprojection = true)
    (hopen : s.IsOpen σ.world.statuses) (hclosing : ∀ d ∈ ds, s ∉ d.closing) :
    s.IsOpen σ'.world.statuses := by
  induction h with
  | nil => exact hopen
  | @snoc ds d σ' h hd ih =>
      have hbefore := ih fun d' hd' => hclosing d' (List.mem_append_left _ hd')
      have hlast := hclosing d (List.mem_append_right _ (List.mem_singleton.mpr rfl))
      have hstart := h₁.trans h
      rw [Deed.isOpen_perform_iff hstart.sound hstart.allSettled hd (h.mem_stages hs) hkind]
      exact ⟨.inr hbefore, hlast⟩

theorem exists_of_isOpen (h : Course backend (Setting.start drawn) ds σ) (hs : s ∈ σ.stages)
    (hkind : s.isReprojection = true) (hopen : s.IsOpen σ.world.statuses) :
    ∃ ds₁ d ds₂ σ₁, ds = ds₁ ++ d :: ds₂ ∧ Course backend (Setting.start drawn) ds₁ σ₁ ∧
      d.Allowed σ₁ ∧ Course backend (d.perform backend σ₁) ds₂ σ ∧
      d.Readies backend σ₁ s ∧ ∀ d' ∈ ds₂, s ∉ d'.closing := by
  induction h with
  | nil => cases hs
  | @snoc ds d σ h hd ih =>
      by_cases hmem : s ∈ σ.stages
      · rw [Deed.isOpen_perform_iff h.sound h.allSettled hd hmem hkind] at hopen
        obtain ⟨hreadies | hopen, hclosing⟩ := hopen
        · exact ⟨ds, d, [], σ, rfl, h, hd, .nil, hreadies, nofun⟩
        · obtain ⟨ds₁, d', ds₂, σ₁, rfl, h₁, hd', h₂, hreadies, hclosings⟩ := ih hmem hopen
          refine ⟨ds₁, d', ds₂ ++ [d], σ₁, ?_, h₁, hd', .snoc h₂ hd, hreadies, ?_⟩
          · rw [List.append_assoc, List.cons_append]
          · intro d'' hd''
            rcases List.mem_append.mp hd'' with hd'' | hd''
            · exact hclosings d'' hd''
            · exact List.mem_singleton.mp hd'' ▸ hclosing
      · obtain rfl := Deed.eq_define_of_mem hs hmem
        exact absurd hopen (Deed.not_isOpen_define hd hkind)

/-- A stage that has given up its transform never holds one again. -/
theorem not_isOpen_of_initialized (h₁ : Course backend (Setting.start drawn) ds₁ σ)
    (h : Course backend σ ds σ') (hs : s ∈ σ.stages) (hkind : s.isReprojection = true)
    (hready : (s.status σ.world.statuses).initialized = true)
    (hshut : ¬s.IsOpen σ.world.statuses) : ¬s.IsOpen σ'.world.statuses := by
  induction h with
  | nil => exact hshut
  | @snoc ds d σ' h hd ih =>
      have hstart := h₁.trans h
      have hkept := h.initialized h₁.sound hs hready
      rw [Deed.isOpen_perform_iff hstart.sound hstart.allSettled hd (h.mem_stages hs) hkind]
      rintro ⟨hreadies | hopen, _⟩
      · obtain ⟨t, _, _, _, hnew, _⟩ :=
          (Deed.readies_iff hstart.sound hstart.allSettled hd).mp hreadies
        exact Bool.noConfusion (hkept.symm.trans hnew)
      · exact ih hopen

theorem get_of_isClosing (h : Course backend σ ds σ') (hclosing : ∀ d ∈ ds, d.IsClosing) (n : Nat) :
    σ'.world.statuses.get n =
      if n ∈ (ds.flatMap Deed.closing).map Stage.number then
        { σ.world.statuses.get n with transform := none }
      else σ.world.statuses.get n := by
  induction h with
  | nil => rfl
  | @snoc ds d σ' h hd ih =>
      have hbefore := ih fun d' hd' => hclosing d' (List.mem_append_left _ hd')
      have hlast := hclosing d (List.mem_append_right _ (List.mem_singleton.mpr rfl))
      rw [Deed.world_of_isClosing hlast, Stage.get_closeAll, hbefore, List.flatMap_append,
        List.map_append]
      simp only [List.flatMap_singleton, List.mem_append]
      by_cases hearlier : n ∈ (ds.flatMap Deed.closing).map Stage.number
      · by_cases hnow : n ∈ d.closing.map Stage.number <;> simp only [hearlier, hnow] <;> rfl
      · by_cases hnow : n ∈ d.closing.map Stage.number <;> simp only [hearlier, hnow] <;> rfl

theorem world_of_isClosing (h : Course backend σ ds σ') (hclosing : ∀ d ∈ ds, d.IsClosing) :
    σ'.world = { σ.world with statuses := σ'.world.statuses } := by
  induction h with
  | nil => rfl
  | @snoc ds d σ' h hd ih =>
      have hbefore := ih fun d' hd' => hclosing d' (List.mem_append_left _ hd')
      have hlast := hclosing d (List.mem_append_right _ (List.mem_singleton.mpr rfl))
      rw [Deed.world_of_isClosing hlast, hbefore]

/-- What there is to say about the transform of a reprojection. -/
structure Tenure (backend : Backend) (drawn : Nat) (ds : List Deed) (σ : Setting) (s : Stage) :
    Prop where
  /-- It is held since some deed has readied the stage, unless the stage was closed after that. -/
  isOpen_iff : s.IsOpen σ.world.statuses ↔
    ∃ ds₁ d ds₂ σ₁, ds = ds₁ ++ d :: ds₂ ∧ Course backend (Setting.start drawn) ds₁ σ₁ ∧
      d.Allowed σ₁ ∧ Course backend (d.perform backend σ₁) ds₂ σ ∧
      d.Readies backend σ₁ s ∧ ∀ d' ∈ ds₂, s ∉ d'.closing
  not_released : ∀ t, s.transform σ.world.statuses = .ok t → t.isReleased = false
  project : ∀ p, (∃ e, s.project σ.world.statuses p = .error e ∧ e.ofPrecondition = true) ↔
    ¬s.IsOpen σ.world.statuses
  reprojectBuffer : ∀ b, (∃ e, s.reprojectBuffer σ.world.statuses b = .error e ∧
    e.ofPrecondition = true) ↔ ¬s.IsOpen σ.world.statuses
  close_of_new : (s.status σ.world.statuses).initialized = false →
    ∀ n, (s.close σ.world.statuses).get n = σ.world.statuses.get n
  /-- Only which stages are closed matters, not how, how often or in what order. -/
  closings : ∀ ds₁ ds₂ σ₁ σ₂, Course backend σ ds₁ σ₁ → Course backend σ ds₂ σ₂ →
    (∀ d ∈ ds₁ ++ ds₂, d.IsClosing) →
    (∀ f, f ∈ ds₁.flatMap Deed.closing ↔ f ∈ ds₂.flatMap Deed.closing) →
      σ₁.world = { σ₂.world with statuses := σ₁.world.statuses } ∧
        ∀ n, σ₁.world.statuses.get n = σ₂.world.statuses.get n
  /-- A failure leaves no transform that was not there before. -/
  failed : ∀ e, (s.prepare backend σ.world.statuses).1 = .error e →
    (s.status (s.prepare backend σ.world.statuses).2).transform =
        (s.status σ.world.statuses).transform ∧
      ((s.status σ.world.statuses).initialized = false →
        ¬s.IsOpen (s.prepare backend σ.world.statuses).2)
  closed_for_good : (s.status σ.world.statuses).initialized = true →
    ∀ (d : Deed) ds' σ', d.Allowed σ → s ∈ d.closing → Course backend (d.perform backend σ) ds' σ' →
      ¬s.IsOpen σ'.world.statuses

theorem tenure (h : Course backend (Setting.start drawn) ds σ) (hs : s ∈ σ.stages)
    (hkind : s.isReprojection = true) : Tenure backend drawn ds σ s where
  isOpen_iff := by
    constructor
    · exact h.exists_of_isOpen hs hkind
    · rintro ⟨ds₁, d, ds₂, σ₁, rfl, h₁, hd, h₂, hreadies, hclosing⟩
      obtain ⟨t, hpending, hmem, hchain, _⟩ :=
        (Deed.readies_iff h₁.sound h₁.allSettled hd).mp hreadies
      have hs₁ : s ∈ σ₁.stages := h₁.sound.family.mem_of_mem_chain hmem hchain
      have hstart : Course backend (Setting.start drawn) (ds₁ ++ [d]) (d.perform backend σ₁) :=
        .snoc h₁ hd
      apply hstart.isOpen_of_not_closed h₂ (Deed.mem_stages_perform hs₁) hkind _ hclosing
      rw [Deed.isOpen_perform_iff h₁.sound h₁.allSettled hd hs₁ hkind,
        Deed.closing_of_pending? hpending]
      exact ⟨.inl hreadies, List.not_mem_nil⟩
  not_released := by
    intro t ht
    exact (h.allSettled s hs).agrees.not_isReleased t (Stage.held_of_transform ht)
  project := Stage.project_refused_iff hkind
  reprojectBuffer := Stage.reprojectBuffer_refused_iff hkind
  close_of_new := by
    intro hnew n
    rw [Stage.close, Table.get_modify]
    split
    · next hn =>
      have hnone := (h.allSettled s hs).agrees.transform_new hnew
      rw [hn]
      change { s.status σ.world.statuses with transform := none } = s.status σ.world.statuses
      rw [← hnone]
    · rfl
  closings := by
    intro ds₁ ds₂ σ₁ σ₂ h₁ h₂ hclosing hsame
    have hclosing₁ : ∀ d ∈ ds₁, d.IsClosing := fun d hd => hclosing d (List.mem_append_left _ hd)
    have hclosing₂ : ∀ d ∈ ds₂, d.IsClosing := fun d hd => hclosing d (List.mem_append_right _ hd)
    constructor
    · rw [h₁.world_of_isClosing hclosing₁, h₂.world_of_isClosing hclosing₂]
    · intro n
      have hnumbers : n ∈ (ds₁.flatMap Deed.closing).map Stage.number ↔
          n ∈ (ds₂.flatMap Deed.closing).map Stage.number := by
        simp only [List.mem_map, hsame]
      rw [h₁.get_of_isClosing hclosing₁, h₂.get_of_isClosing hclosing₂]
      simp only [hnumbers]
  failed := by
    intro e hfailed
    have hfamily := h.sound.family
    have hnot : ¬Stage.Readies backend σ.world.statuses s s := by
      intro hreadies
      obtain ⟨_, hnew, hfree⟩ := (h.allSettled.readies_iff hfamily hs).mp hreadies
      rw [h.allSettled.prepare_fst hfamily hs hnew, hfree] at hfailed
      cases hfailed
    have hkept := h.allSettled.transform_of_not_readies hfamily hs hs hnot
    refine ⟨hkept, ?_⟩
    intro hnew
    rw [Stage.isOpen_iff hkind, hkept, (h.allSettled s hs).agrees.transform_new hnew]
    exact nofun
  closed_for_good := by
    intro hready d ds' σ' hd hclosing h'
    have hstart : Course backend (Setting.start drawn) (ds ++ [d]) (d.perform backend σ) :=
      .snoc h hd
    apply hstart.not_isOpen_of_initialized h' (Deed.mem_stages_perform hs) hkind
    · exact Deed.initialized_perform h.sound hd hs hready
    · rw [Deed.isOpen_perform_iff h.sound h.allSettled hd hs hkind]
      exact fun hopen => hopen.2 hclosing

theorem tenure_of_ramp :
    (Stage.rampTo 2 "T:SHIFT").IsOpen
        (Setting.ofDeeds Local.backend (Deed.ofRamp 2 "T:SHIFT")).world.statuses ∧
      Tenure Local.backend 0 (Deed.ofRamp 2 "T:SHIFT")
        (Setting.ofDeeds Local.backend (Deed.ofRamp 2 "T:SHIFT")) (Stage.rampTo 2 "T:SHIFT") :=
  ⟨⟨_, rfl⟩, tenure (ofRamp Local.backend 2 "T:SHIFT") (List.mem_cons_self ..) rfl⟩

end Course

end PointStream

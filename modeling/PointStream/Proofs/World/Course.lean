import PointStream.Crs.Local
import PointStream.Proofs.Stage.Obstacles
import PointStream.Proofs.World.Reachable

/-!
# What holds along a course

What a deed does to the statuses is said once, in `statuses_perform`: it defines a stage, updates a
box, or prepares at most one stage and closes some. All that holds along a course rests on it.
-/

namespace PointStream

/-- Whether a deed comes to prepare a stage, and succeeds with that one. -/
def Deed.Readies (backend : Backend) (σ : Setting) (d : Deed) (s : Stage) : Prop :=
  ∃ t, d.pending? σ.world.statuses = some t ∧ Stage.Readies backend σ.world.statuses t s

/-- A ramp and a reprojection behind it are defined, and the reprojection is prepared. -/
def Deed.ofRamp (corner : Double) (output : String) : List Deed :=
  [.define (.ramp corner), .define (.rampTo corner output), .prepare (.rampTo corner output)]

/-- The setting that some deeds lead to. -/
def Setting.ofDeeds (backend : Backend) (ds : List Deed) : Setting :=
  ds.foldl (Deed.perform backend) (start 0)

variable {backend : Backend} {σ σ' σ'' : Setting} {d : Deed} {ds ds' : List Deed} {s : Stage}
  {drawn : Nat}

namespace Deed

theorem mem_of_pending? {statuses : Statuses} (h : d.pending? statuses = some s) :
    s ∈ d.stages := by
  cases d with
  | prepare t =>
      cases h
      exact List.mem_singleton.mpr rfl
  | preparePipeline p => exact Pipeline.mem_of_pending? h
  | next r => exact Run.mem_of_pending? h
  | execute p chunk => exact Run.mem_of_pending? (r := Run.start p chunk) h
  | _ => cases h

/-- What a deed does to the statuses. -/
theorem statuses_perform (backend : Backend) (σ : Setting) (d : Deed) :
    (d.perform backend σ).world.statuses =
      match d with
      | define s => σ.world.statuses.set σ.world.numbers s.initialStatus
      | updateBounds s => (s.updateBounds σ.world.statuses).2
      | d =>
        Stage.closeAll d.closing
          (Stage.preparing backend (d.pending? σ.world.statuses) σ.world.statuses) := by
  cases d with
  | preparePipeline p =>
      rw [perform, p.prepare_snd]
      rfl
  | next r => exact (r.next_keeps backend σ.world).2.2.1
  | execute p chunk => exact (p.execute_keeps backend chunk σ.world).2
  | _ => rfl

theorem stages_perform (backend : Backend) (σ : Setting) (d : Deed) :
    (d.perform backend σ).stages =
      match d with
      | define s => s :: σ.stages
      | _ => σ.stages := by
  cases d <;> rfl

end Deed

namespace Stage

variable {updated updated' : Prop} {stages : List Stage} {statuses : Statuses}

theorem AllSettled.mono (h : AllSettled backend updated stages statuses)
    (himp : updated → updated') : AllSettled backend updated' stages statuses := by
  intro s hs
  obtain ⟨hagrees, hprevious⟩ := h s hs
  exact ⟨{ hagrees with bounds := fun hready hnot => hagrees.bounds hready (mt himp hnot) },
    hprevious⟩

theorem AllSettled.define (hsound : σ.Sound backend)
    (h : AllSettled backend updated σ.stages σ.world.statuses) (hnumber : s.number = σ.world.numbers) :
    AllSettled backend updated (s :: σ.stages)
      (σ.world.statuses.set σ.world.numbers s.initialStatus) := by
  intro f hf
  rcases List.mem_cons.mp hf with rfl | hf
  · have hown : f.status (σ.world.statuses.set σ.world.numbers f.initialStatus) =
        f.initialStatus := by
      rw [status, hnumber, Table.get_set, if_pos rfl]
    refine ⟨?_, ?_⟩
    · rw [hown]
      exact .initial f
    · rw [hown]
      exact fun h => absurd h Bool.false_ne_true
  · obtain ⟨hagrees, hprevious⟩ := h f hf
    refine ⟨?_, ?_⟩
    · rw [hsound.status_define hf]
      exact hagrees
    · rw [hsound.status_define hf]
      intro hready before hbefore
      rw [hsound.status_define (hsound.family.previous f hf before hbefore)]
      exact hprevious hready before hbefore

theorem AllSettled.perform (hsound : σ.Sound backend)
    (h : AllSettled backend updated σ.stages σ.world.statuses) (hd : d.Allowed σ)
    (hupdated : ∀ s, d = .updateBounds s → updated) :
    AllSettled backend updated (d.perform backend σ).stages
      (d.perform backend σ).world.statuses := by
  rw [Deed.statuses_perform, Deed.stages_perform]
  have hrest : AllSettled backend updated σ.stages (closeAll d.closing
      (preparing backend (d.pending? σ.world.statuses) σ.world.statuses)) := by
    apply AllSettled.close
    cases hpending : d.pending? σ.world.statuses with
    | none => exact h
    | some t => exact h.prepare hsound.family (hd.1 t (Deed.mem_of_pending? hpending))
  cases d with
  | define s => exact h.define hsound (hd.2 s rfl)
  | updateBounds s =>
      have hs : s ∈ σ.stages := hd.1 s (List.mem_singleton.mpr rfl)
      change AllSettled backend updated σ.stages (s.updateBounds σ.world.statuses).2
      unfold updateBounds
      split
      · exact h
      · next t ht => exact h.change hsound.family hs (.update s t ht) (.inl (hupdated s rfl))
  | _ => exact hrest

end Stage

namespace Deed

theorem mem_stages_perform (hs : s ∈ σ.stages) : s ∈ (d.perform backend σ).stages := by
  rw [stages_perform]
  split
  · exact List.mem_cons_of_mem _ hs
  · exact hs

theorem initialized_perform (hsound : σ.Sound backend) (hd : d.Allowed σ) (hs : s ∈ σ.stages)
    (h : (s.status σ.world.statuses).initialized = true) :
    (s.status (d.perform backend σ).world.statuses).initialized = true := by
  rw [statuses_perform]
  split
  · rw [hsound.status_define hs]
    exact h
  · exact Stage.Changes.initialized (@Stage.changes_updateBounds backend _ _) h
  · rw [Stage.status, Stage.initialized_closeAll]
    cases hpending : d.pending? σ.world.statuses with
    | none => exact h
    | some t =>
        have ht := hd.1 t (mem_of_pending? hpending)
        exact (hsound.family.changes_prepare ht).initialized h

end Deed

namespace Course

theorem mem_stages (h : Course backend σ ds σ') (hs : s ∈ σ.stages) : s ∈ σ'.stages := by
  induction h with
  | nil => exact hs
  | snoc _ _ ih => exact Deed.mem_stages_perform ih

theorem initialized (hsound : σ.Sound backend) (h : Course backend σ ds σ') (hs : s ∈ σ.stages)
    (hready : (s.status σ.world.statuses).initialized = true) :
    (s.status σ'.world.statuses).initialized = true := by
  induction h with
  | nil => exact hready
  | snoc h hd ih =>
      exact Deed.initialized_perform (h.keeps_sound hsound) hd (h.mem_stages hs) ih

theorem allSettled (h : Course backend (Setting.start drawn) ds σ) :
    Stage.AllSettled backend (∃ s, .updateBounds s ∈ ds) σ.stages σ.world.statuses := by
  induction h with
  | nil => exact nofun
  | @snoc ds d σ h hd ih =>
      have hmore : Stage.AllSettled backend (∃ s, .updateBounds s ∈ ds ++ [d]) σ.stages
          σ.world.statuses :=
        ih.mono fun ⟨s, hs⟩ => ⟨s, List.mem_append_left _ hs⟩
      refine hmore.perform h.sound hd ?_
      rintro s rfl
      exact ⟨s, List.mem_append_right _ (List.mem_singleton.mpr rfl)⟩

theorem known_eq (h : Course backend (Setting.start drawn) ds σ)
    (hquiet : ∀ f, .updateBounds f ∉ ds) (hs : s ∈ σ.stages)
    (hready : (s.status σ.world.statuses).initialized = true) :
    ∃ own, s.known σ.world.statuses = .ok own ∧ own.metadata = s.metadata backend := by
  have hagrees := (h.allSettled s hs).agrees
  refine ⟨s.status σ.world.statuses, if_pos hready, ?_⟩
  rw [hagrees.metadata hready, hagrees.bounds hready fun ⟨f, hf⟩ => hquiet f hf]

/-- As long as no box is updated, the stages of the chain of an initialized stage have the metadata
that the chain settles, and have them for good. -/
theorem metadata_eq (h : Course backend (Setting.start drawn) ds σ)
    (hquiet : ∀ f, .updateBounds f ∉ ds) (hs : s ∈ σ.stages)
    (hready : (s.status σ.world.statuses).initialized = true) :
    ∀ ds' σ', Course backend σ ds' σ' → (∀ f, .updateBounds f ∉ ds') →
      ∀ f ∈ s.chain, ∃ own, f.known σ'.world.statuses = .ok own ∧
        own.metadata = f.metadata backend := by
  intro ds' σ' h' hquiet' f hf
  have hall := h.allSettled.inOrder.initialized_chain h.sound.family hs hready
  have hmem := h.sound.family.mem_of_mem_chain hs hf
  apply (h.trans h').known_eq
  · intro t ht
    rcases List.mem_append.mp ht with ht | ht
    · exact hquiet t ht
    · exact hquiet' t ht
  · exact h'.mem_stages hmem
  · exact h'.initialized h.sound hmem (hall f hf)

theorem defineRamp (backend : Backend) (corner : Double) (output : String) :
    Course backend (Setting.start 0) [.define (.ramp corner), .define (.rampTo corner output)]
      (Setting.ofDeeds backend [.define (.ramp corner), .define (.rampTo corner output)]) := by
  have hsource : Deed.Allowed (Setting.ofDeeds backend []) (.define (.ramp corner)) :=
    ⟨nofun, by rintro _ ⟨⟩; rfl⟩
  have hfilter : Deed.Allowed (Setting.ofDeeds backend [.define (.ramp corner)])
      (.define (.rampTo corner output)) :=
    ⟨fun _ hs => hs, by rintro _ ⟨⟩; rfl⟩
  exact .snoc (.snoc .nil hsource) hfilter

theorem allowed_prepare_ramp (backend : Backend) (corner : Double) (output : String) :
    Deed.Allowed
      (Setting.ofDeeds backend [.define (.ramp corner), .define (.rampTo corner output)])
      (.prepare (.rampTo corner output)) :=
  ⟨fun _ hs => List.mem_singleton.mp hs ▸ List.mem_cons_self .., nofun⟩

theorem ofRamp (backend : Backend) (corner : Double) (output : String) :
    Course backend (Setting.start 0) (Deed.ofRamp corner output)
      (Setting.ofDeeds backend (Deed.ofRamp corner output)) :=
  .snoc (defineRamp backend corner output) (allowed_prepare_ramp backend corner output)

theorem metadata_of_ramp :
    ∃ own, (Stage.rampTo 2 "T:SHIFT").known
        (Setting.ofDeeds Local.backend (Deed.ofRamp 2 "T:SHIFT")).world.statuses = .ok own ∧
      own.metadata = (Stage.rampTo 2 "T:SHIFT").metadata Local.backend := by
  have hquiet : ∀ f, Deed.updateBounds f ∉ Deed.ofRamp 2 "T:SHIFT" := by
    intro f hf
    simp [Deed.ofRamp] at hf
  exact metadata_eq (ofRamp Local.backend 2 "T:SHIFT") hquiet (List.mem_cons_self ..) rfl [] _ .nil
    nofun _ (Stage.self_mem_chain _)

end Course

end PointStream

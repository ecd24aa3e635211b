import PointStream.Cursor
import PointStream.Proofs.Pipeline.Pending
import PointStream.Proofs.Stage.Fits

/-!
# Reachable settings

A setting is a world, with the stages that were defined in it and a record of those that were closed
after they had been initialized. A course is a row of deeds, each of them done in the setting that
those before it have left; a setting can be reached if a course leads to it from the start. Whatever
is done on the way and however it ends, an initialized stage fits the stage before it, and holds its
transform until it is closed.
-/

namespace PointStream

/-- Whether a world became another one by changes of the statuses of some stages, and what runs
count. -/
def World.Evolves (backend : Backend) (stages : List Stage) (w w' : World) : Prop :=
  w'.numbers = w.numbers ∧ Stage.Changes backend stages w.statuses w'.statuses

namespace World.Evolves

variable {backend : Backend} {stages : List Stage} {w w' : World} (hfamily : Stage.Family stages)

include hfamily

theorem preparing {pending : Option Stage} (hpending : ∀ s, pending = some s → s ∈ stages)
    (hnumbers : w'.numbers = w.numbers)
    (hstatuses : w'.statuses = Stage.preparing backend pending w.statuses) :
    w.Evolves backend stages w' := by
  refine ⟨hnumbers, ?_⟩
  rw [hstatuses]
  cases pending with
  | none => exact .refl
  | some s => exact hfamily.changes_prepare (hpending s rfl)

theorem preparePipeline {p : Pipeline} (hp : ∀ s ∈ p.stages, s ∈ stages) :
    w.Evolves backend stages (p.prepare backend w).2 := by
  rw [p.prepare_snd]
  exact preparing hfamily (fun s hs => hp s (Pipeline.mem_of_pending? hs)) rfl rfl

theorem next {r : Run} (hp : ∀ s ∈ r.pipeline.stages, s ∈ stages) :
    w.Evolves backend stages (r.next backend w).2.1 := by
  obtain ⟨_, hnumbers, hstatuses, _⟩ := r.next_keeps backend w
  exact preparing hfamily (fun s hs => hp s (Run.mem_of_pending? hs)) hnumbers hstatuses

theorem execute {p : Pipeline} (hp : ∀ s ∈ p.stages, s ∈ stages) (chunk : Value) :
    w.Evolves backend stages (p.execute backend chunk w).2 := by
  obtain ⟨hnumbers, hstatuses⟩ := p.execute_keeps backend chunk w
  exact preparing hfamily
    (fun s hs => hp s (Run.mem_of_pending? (r := Run.start p chunk) hs)) hnumbers hstatuses

end World.Evolves

/-- A world and the stages that live in it. -/
structure Setting where
  world : World
  stages : List Stage
  /-- The numbers of the stages that were closed after they had been initialized. -/
  closed : List Nat

namespace Setting

def start (drawn : Nat) : Setting :=
  ⟨World.start drawn, [], []⟩

def at_ (σ : Setting) (w : World) : Setting :=
  { σ with world := w }

/-- The setting after some stages were closed, of which those that were initialized are noted. -/
def closing (σ : Setting) (stages : List Stage) (w : World) : Setting :=
  { σ with
    world := w
    closed := (stages.filter fun s => (s.status σ.world.statuses).initialized).map Stage.number
      ++ σ.closed }

end Setting

/-- What can be done in a setting. To leave the block that a stage was opened for is to close it. -/
inductive Deed where
  | number
  | define (s : Stage)
  | pipeline
  | prepare (s : Stage)
  | updateBounds (s : Stage)
  | close (s : Stage)
  | preparePipeline (p : Pipeline)
  | closePipeline (p : Pipeline)
  | next (r : Run)
  | execute (p : Pipeline) (chunk : Value)
  | project (s : Stage) (p : Point)
  | reprojectBuffer (s : Stage) (b : Buffer)
  | visit (s : Stage) (visit : Visit)
  | read (c : Cursor) (b : Buffer)
  | skip (c : Cursor) (count : Number)

namespace Deed

/-- The stages that a deed needs. -/
def stages : Deed → List Stage
  | define s => s.previous?.toList
  | prepare s | updateBounds s | close s | project s _ | reprojectBuffer s _ | visit s _ => [s]
  | preparePipeline p | closePipeline p | execute p _ => p.stages
  | next r => r.pipeline.stages
  | _ => []

/-- The stages that a deed closes. -/
def closing : Deed → List Stage
  | close s => [s]
  | closePipeline p => p.stages
  | _ => []

/-- The stage that a deed prepares. -/
def pending? (statuses : Statuses) : Deed → Option Stage
  | prepare s => some s
  | preparePipeline p => p.pending? statuses
  | next r => r.pending? statuses
  | execute p chunk => (Run.start p chunk).pending? statuses
  | _ => none

def Allowed (σ : Setting) (d : Deed) : Prop :=
  (∀ s ∈ d.stages, s ∈ σ.stages) ∧ ∀ s, d = define s → s.number = σ.world.numbers

/-- The setting after a deed. Points, buffers and cursors are no part of it: whatever is done to
them, the statuses are only read. -/
def perform (backend : Backend) (σ : Setting) : Deed → Setting
  | number => σ.at_ σ.world.number.2
  | define s =>
    { σ with
      world :=
        { σ.world with
          numbers := σ.world.numbers + 1
          statuses := σ.world.statuses.set σ.world.numbers s.initialStatus }
      stages := s :: σ.stages }
  | pipeline => σ.at_ { σ.world with pipelines := σ.world.pipelines + 1 }
  | prepare s => σ.at_ (σ.world.changing (s.prepare backend)).2
  | updateBounds s => σ.at_ (σ.world.changing s.updateBounds).2
  | close s => σ.closing [s] { σ.world with statuses := s.close σ.world.statuses }
  | preparePipeline p => σ.at_ (p.prepare backend σ.world).2
  | closePipeline p => σ.closing p.stages (p.close σ.world)
  | next r => σ.at_ (r.next backend σ.world).2.1
  | execute p chunk => σ.at_ (p.execute backend chunk σ.world).2
  | _ => σ

/-- Whatever makes a stage, the world is then as the deed leaves it that defines the stage. -/
theorem world_define (backend : Backend) {σ : Setting} {make : Nat → Except Failure Stage}
    {s : Stage} {w : World} (h : σ.world.define make = .ok (s, w)) :
    ((define s).perform backend σ).world = w := by
  unfold World.define at h
  split at h
  · cases h
  · cases h
    rfl

end Deed

/-- A row of deeds that leads from one setting to another. -/
inductive Course (backend : Backend) (σ : Setting) : List Deed → Setting → Prop
  | nil : Course backend σ [] σ
  | snoc {ds : List Deed} {d : Deed} {σ' : Setting} (h : Course backend σ ds σ')
    (hd : d.Allowed σ') : Course backend σ (ds ++ [d]) (d.perform backend σ')

theorem Course.trans {backend : Backend} {σ σ' σ'' : Setting} {ds ds' : List Deed}
    (h : Course backend σ ds σ') (h' : Course backend σ' ds' σ'') :
    Course backend σ (ds ++ ds') σ'' := by
  induction h' with
  | nil => rwa [List.append_nil]
  | snoc _ hd ih =>
      rw [← List.append_assoc]
      exact .snoc ih hd

namespace Setting

def Reachable (backend : Backend) (σ : Setting) : Prop :=
  ∃ drawn ds, Course backend (start drawn) ds σ

/-- The setting in which a source and a filter behind it were defined, and nothing else was done. -/
def pair (source filter : Stage) : Setting :=
  { world :=
      { World.start 0 with
        numbers := 2
        statuses := (Statuses.none.set 0 source.initialStatus).set 1 filter.initialStatus }
    stages := [filter, source]
    closed := [] }

theorem reachable_pair (backend : Backend) {source filter : Stage} (hsource : source.number = 0)
    (hfirst : source.previous? = none) (hfilter : filter.number = 1)
    (hprevious : filter.previous? = some source) : (pair source filter).Reachable backend := by
  have hdefine : (Deed.define source).Allowed (start 0) := by
    refine ⟨?_, ?_⟩
    · intro before hbefore
      rw [Deed.stages, hfirst] at hbefore
      cases hbefore
    · rintro _ ⟨⟩
      exact hsource
  have hbehind : (Deed.define filter).Allowed ((Deed.define source).perform backend (start 0)) := by
    refine ⟨?_, ?_⟩
    · intro before hbefore
      rw [Deed.stages, hprevious] at hbefore
      exact List.mem_singleton.mp hbefore ▸ List.mem_cons_self ..
    · rintro _ ⟨⟩
      exact hfilter
  exact ⟨0, _, .snoc (.snoc .nil hdefine) hbehind⟩

/-- What holds of every setting that can be reached. -/
structure Sound (backend : Backend) (σ : Setting) : Prop where
  family : Stage.Family σ.stages
  below : ∀ s ∈ σ.stages, s.number < σ.world.numbers
  fits : Stage.AllFit backend σ.closed σ.stages σ.world.statuses

variable {backend : Backend} {σ σ' : Setting} {w : World} {d : Deed} {ds : List Deed} {s : Stage}

theorem sound_start (backend : Backend) (drawn : Nat) : Sound backend (start drawn) :=
  ⟨⟨nofun, nofun, nofun⟩, nofun, nofun⟩

namespace Sound

theorem evolve (h : Sound backend σ) (hw : σ.world.Evolves backend σ.stages w) :
    Sound backend (σ.at_ w) := by
  refine ⟨h.family, ?_, h.fits.changes h.family hw.2⟩
  intro s hs
  exact hw.1.symm ▸ h.below s hs

theorem preparePipeline (h : Sound backend σ) {p : Pipeline} (hp : ∀ s ∈ p.stages, s ∈ σ.stages)
    {result : Except Failure Unit} (hprepare : p.prepare backend σ.world = (result, w)) :
    Sound backend (σ.at_ w) := by
  have hevolves : σ.world.Evolves backend σ.stages (p.prepare backend σ.world).2 :=
    .preparePipeline h.family hp
  rw [hprepare] at hevolves
  exact h.evolve hevolves

theorem close (h : Sound backend σ) (closing : List Stage)
    (hw : w = { σ.world with statuses := Stage.closeAll closing σ.world.statuses }) :
    Sound backend (σ.closing closing w) := by
  subst hw
  refine ⟨h.family, h.below, h.fits.close ?_ ?_⟩
  · intro s hs hinitialized
    exact List.mem_append_left _
      (List.mem_map_of_mem (List.mem_filter.mpr ⟨hs, hinitialized⟩))
  · intro n hn
    exact List.mem_append_right _ hn

theorem family_cons (h : Sound backend σ) {s : Stage} (hnumber : s.number = σ.world.numbers)
    (hprevious : ∀ previous, s.previous? = some previous → previous ∈ σ.stages) :
    Stage.Family (s :: σ.stages) := by
  have hlt : ∀ f ∈ σ.stages, f.number < s.number := by
    intro f hf
    exact hnumber.symm ▸ h.below f hf
  refine ⟨?_, ?_, ?_⟩
  · intro f hf before hbefore
    rcases List.mem_cons.mp hf with rfl | hf
    · exact List.mem_cons_of_mem _ (hprevious before hbefore)
    · exact List.mem_cons_of_mem _ (h.family.previous f hf before hbefore)
  · intro f hf
    rcases List.mem_cons.mp hf with rfl | hf
    · cases f with
      | source n o kind => exact trivial
      | loose n o kind given => exact trivial
      | filter n o kind previous =>
          have hmem := hprevious previous rfl
          exact ⟨hlt previous hmem, h.family.ascending previous hmem⟩
    · exact h.family.ascending f hf
  · intro f hf f' hf' heq
    rcases List.mem_cons.mp hf with hs | hf <;> rcases List.mem_cons.mp hf' with hs' | hf'
    · exact hs.trans hs'.symm
    · exact absurd (hs ▸ heq).symm (Nat.ne_of_lt (hlt f' hf'))
    · exact absurd (hs' ▸ heq) (Nat.ne_of_lt (hlt f hf))
    · exact h.family.unique f hf f' hf' heq

theorem status_define (h : Sound backend σ) (hs : s ∈ σ.stages) (own : Status) :
    s.status (σ.world.statuses.set σ.world.numbers own) = s.status σ.world.statuses := by
  -- The new number is above those of the stages that were there.
  rw [Stage.status, Table.get_set, if_neg (Nat.ne_of_lt (h.below s hs))]
  rfl

theorem define (h : Sound backend σ) (hd : (Deed.define s).Allowed σ) :
    Sound backend ((Deed.define s).perform backend σ) := by
  have hnumber := hd.2 s rfl
  have hprevious : ∀ previous, s.previous? = some previous → previous ∈ σ.stages := by
    intro previous hprevious
    exact hd.1 previous (Option.mem_toList.mpr hprevious)
  refine ⟨h.family_cons hnumber hprevious, ?_, ?_⟩
  · intro f hf
    change f.number < σ.world.numbers + 1
    rcases List.mem_cons.mp hf with rfl | hf
    · exact hnumber ▸ Nat.lt_succ_self _
    · exact Nat.lt_succ_of_lt (h.below f hf)
  · intro f hf hinitialized
    change (f.status (σ.world.statuses.set σ.world.numbers s.initialStatus)).initialized = true
      at hinitialized
    rcases List.mem_cons.mp hf with rfl | hf
    · rw [Stage.status, hnumber, Table.get_set, if_pos rfl] at hinitialized
      cases hinitialized
    · have hown := h.status_define hf s.initialStatus
      refine (h.fits f hf (hown ▸ hinitialized)).congr (congrArg _ hown)
        (fun hopen => ⟨hopen, congrArg _ hown⟩) ?_
      intro before hbefore hready
      have hsame := h.status_define (h.family.previous f hf before hbefore) s.initialStatus
      exact ⟨hsame ▸ hready, congrArg _ hsame⟩

theorem perform (h : Sound backend σ) (hd : d.Allowed σ) : Sound backend (d.perform backend σ) := by
  cases d with
  | number => exact ⟨h.family, fun s hs => Nat.lt_succ_of_lt (h.below s hs), h.fits⟩
  | define s => exact h.define hd
  | pipeline => exact ⟨h.family, h.below, h.fits⟩
  | prepare s =>
      have hs : s ∈ σ.stages := hd.1 s (List.mem_singleton.mpr rfl)
      exact h.evolve ⟨rfl, h.family.changes_prepare hs⟩
  | updateBounds s => exact h.evolve ⟨rfl, Stage.changes_updateBounds.mono hd.1⟩
  | close s => exact h.close [s] rfl
  | preparePipeline p => exact h.evolve (.preparePipeline h.family hd.1)
  | closePipeline p => exact h.close p.stages rfl
  | next r => exact h.evolve (.next h.family hd.1)
  | execute p chunk => exact h.evolve (.execute h.family hd.1 chunk)
  | _ => exact h

end Sound

end Setting

theorem Course.keeps_sound (h : Course backend σ ds σ') (hsound : σ.Sound backend) :
    σ'.Sound backend := by
  induction h with
  | nil => exact hsound
  | snoc _ hd ih => exact ih.perform hd

theorem Course.sound {drawn : Nat} (h : Course backend (Setting.start drawn) ds σ) :
    σ.Sound backend :=
  h.keeps_sound (Setting.sound_start backend drawn)

namespace Setting

theorem sound_of_reachable (h : Reachable backend σ) : Sound backend σ := by
  obtain ⟨drawn, ds, h⟩ := h
  exact h.sound

theorem Reachable.course (h : Reachable backend σ) (hcourse : Course backend σ ds σ') :
    Reachable backend σ' := by
  obtain ⟨drawn, ds', hstart⟩ := h
  exact ⟨drawn, ds' ++ ds, hstart.trans hcourse⟩

end Setting

end PointStream

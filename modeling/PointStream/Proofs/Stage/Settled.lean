import PointStream.Proofs.Stage.Fits
import PointStream.Proofs.Stage.Metadata

/-!
# Settled stages

Whatever became of a stage, it knows nothing but what its chain settles: once it is initialized it
has the metadata of the chain, and before that it holds no transform. So whether it can be prepared,
and why not, is a matter of the chain, too.
-/

namespace PointStream

namespace FilterKind

variable (backend : Backend) (kind : FilterKind) (m : Metadata)

theorem obstacle?_bounds (box : Bounds) :
    kind.obstacle? backend { m with bounds := box } = kind.obstacle? backend m := by
  cases kind <;> rfl

theorem metadata_bounds (o : Options) (box : Bounds) :
    ∃ box', kind.metadata backend o { m with bounds := box } =
      { kind.metadata backend o m with bounds := box' } := by
  cases kind with
  | plain p => exact ⟨box, rfl⟩
  | reprojection r => exact ⟨_, rfl⟩

end FilterKind

namespace Stage

/-- Whether a status is one that a stage can come to have. The box may be another one than that of
the chain only if some box was updated. -/
structure Agrees (backend : Backend) (updated : Prop) (s : Stage) (own : Status) : Prop where
  not_isReleased : ∀ t, own.transform = some t → t.isReleased = false
  transform_new : own.initialized = false → own.transform = none
  status_new : own.initialized = false → s.isReprojection = false → own = s.initialStatus
  obstacle : own.initialized = true → s.obstacle? backend = none
  metadata : own.initialized = true →
    own.metadata = { s.metadata backend with bounds := own.bounds }
  bounds : own.initialized = true → ¬updated → own.bounds = (s.metadata backend).bounds

/-- A stage whose status agrees with its chain and that is not ahead of the stage before it. -/
structure Settled (backend : Backend) (updated : Prop) (statuses : Statuses) (s : Stage) : Prop where
  agrees : s.Agrees backend updated (s.status statuses)
  previous : (s.status statuses).initialized = true → ∀ before, s.previous? = some before →
    (before.status statuses).initialized = true

def AllSettled (backend : Backend) (updated : Prop) (stages : List Stage) (statuses : Statuses) :
    Prop :=
  ∀ s ∈ stages, s.Settled backend updated statuses

variable {backend : Backend} {updated : Prop} {stages : List Stage} {statuses statuses' : Statuses}
  {s f previous : Stage} {n : Nat} {o : Options} {own before : Status}

namespace Agrees

variable {kind : FilterKind}

theorem initial (s : Stage) : s.Agrees backend updated s.initialStatus :=
  ⟨nofun, fun _ => rfl, fun _ _ => rfl, nofun, nofun, nofun⟩

theorem close (h : s.Agrees backend updated own) :
    s.Agrees backend updated { own with transform := none } where
  not_isReleased := nofun
  transform_new _ := rfl
  status_new hnew hkind := by
    have hown := h.status_new hnew hkind
    rw [hown]
    rfl
  obstacle := h.obstacle
  metadata := h.metadata
  bounds := h.bounds

theorem updateBounds (h : s.Agrees backend updated own) {t : Transform}
    (ht : own.transform = some t) (hupdated : updated) (box : Bounds) :
    s.Agrees backend updated { own with bounds := box } where
  not_isReleased := h.not_isReleased
  transform_new := h.transform_new
  status_new hnew _ := by
    have hnone := h.transform_new hnew
    rw [ht] at hnone
    cases hnone
  obstacle := h.obstacle
  metadata hinitialized := by
    have hmetadata := h.metadata hinitialized
    exact congrArg (fun m : Metadata => { m with bounds := box }) hmetadata
  bounds _ hnot := absurd hupdated hnot

theorem setUp {kind : SourceKind} (h : (source n o kind).Agrees backend updated own)
    (hnew : own.initialized = false) :
    (source n o kind).Agrees backend updated
      { (match kind with
        | .generated g => own.ofGenerator g
        | .plain _ => own) with initialized := true } := by
  rw [h.status_new hnew rfl]
  cases kind with
  | generated g => exact ⟨nofun, nofun, nofun, fun _ => rfl, fun _ => rfl, fun _ _ => rfl⟩
  | plain p => exact ⟨nofun, nofun, nofun, fun _ => rfl, fun _ => rfl, fun _ _ => rfl⟩

theorem obstacle?_eq (h : previous.Agrees backend updated before)
    (hready : before.initialized = true) (n : Nat) (o : Options) (kind : FilterKind) :
    kind.obstacle? backend before.metadata = (filter n o kind previous).obstacle? backend := by
  rw [h.metadata hready, FilterKind.obstacle?_bounds]
  rfl

theorem derive (h : (filter n o kind previous).Agrees backend updated own)
    (hnew : own.initialized = false) (hbefore : previous.Agrees backend updated before)
    (hready : before.initialized = true) :
    (filter n o kind previous).Agrees backend updated
      (Status.settle (own.derive before backend kind)) := by
  have hobstacle := hbefore.obstacle?_eq hready n o kind
  cases hfound : (filter n o kind previous).obstacle? backend with
  | some e =>
      obtain ⟨own', hderive, hinitialized, htransform⟩ :=
        Status.derive_of_obstacle own (hobstacle.trans hfound)
      have hreprojection : (filter n o kind previous).isReprojection = true := by
        cases kind with
        | plain p => cases hfound
        | reprojection r => rfl
      have hnone : own'.transform = none := htransform.trans (h.transform_new hnew)
      have hnew' : own'.initialized = false := hinitialized.trans hnew
      have hnot (hinitialized' : own'.initialized = true) : False :=
        Bool.noConfusion (hnew'.symm.trans hinitialized')
      rw [hderive]
      refine ⟨?_, fun _ => hnone, ?_, fun h => (hnot h).elim, fun h => (hnot h).elim,
        fun h => (hnot h).elim⟩
      · intro t ht
        exact absurd (hnone.symm.trans ht) nofun
      · intro _ hplain
        exact Bool.noConfusion (hreprojection.symm.trans hplain)
  | none =>
      obtain ⟨own', hderive, hmetadata, hkept, hacquired⟩ :=
        Status.derive_of_free own (hobstacle.trans hfound)
      have hmetadata := hmetadata o fun p hkind => by
        subst hkind
        rw [h.status_new hnew rfl]
        exact ⟨rfl, rfl⟩
      rw [hderive]
      refine ⟨?_, nofun, nofun, fun _ => hfound, fun _ => ?_, fun _ hnot => ?_⟩
      · intro t ht
        cases kind with
        | plain p => exact h.not_isReleased t ((hkept p rfl).symm.trans ht)
        | reprojection r =>
            obtain ⟨t', ht', hopen⟩ := hacquired r rfl
            cases ht'.symm.trans ht
            exact hopen
      · obtain ⟨box, hbox⟩ := kind.metadata_bounds backend
          (previous.metadata backend) o before.bounds
        rw [hbefore.metadata hready, hbox] at hmetadata
        obtain rfl : own'.bounds = box := congrArg Metadata.bounds hmetadata
        exact hmetadata
      · have hsame : before.metadata = previous.metadata backend := by
          rw [hbefore.metadata hready, hbefore.bounds hready hnot]
        rw [hsame] at hmetadata
        exact congrArg Metadata.bounds hmetadata

end Agrees

theorem held_of_transform {t : Transform} (h : s.transform statuses = .ok t) :
    (s.status statuses).transform = some t := by
  unfold transform at h
  split at h
  · cases h
  · split at h
    · cases h
    · next heq =>
      cases h
      exact heq

theorem Change.initialized (h : Change backend statuses s statuses')
    (hn : (statuses.get n).initialized = true) : (statuses'.get n).initialized = true := by
  cases h with
  | setUp m o kind hnew =>
      rw [Table.get_set]
      split
      · rfl
      · exact hn
  | derive m o kind previous hnew _ =>
      rw [Table.get_set, if_neg]
      · exact hn
      · rintro rfl
        exact Bool.noConfusion (hnew.symm.trans hn)
  | update _ t _ => exact (get_modify_bounds statuses s.number _ n).1.trans hn

theorem Changes.initialized (h : Changes backend stages statuses statuses')
    (hn : (statuses.get n).initialized = true) : (statuses'.get n).initialized = true := by
  induction h with
  | refl => exact hn
  | tail _ hchange ih =>
      obtain ⟨s, _, hchange⟩ := hchange
      exact hchange.initialized ih

theorem initialized_closeAll (closing : List Stage) (statuses : Statuses) (n : Nat) :
    ((closeAll closing statuses).get n).initialized = (statuses.get n).initialized := by
  rw [get_closeAll]
  split <;> rfl

theorem AllSettled.change (hfamily : Family stages) (hs : s ∈ stages)
    (hall : AllSettled backend updated stages statuses) (h : Change backend statuses s statuses')
    (hupdated : updated ∨ (s.status statuses).initialized = false) :
    AllSettled backend updated stages statuses' := by
  intro f hf
  refine ⟨?_, ?_⟩
  · by_cases hnumber : f.number = s.number
    · obtain rfl := hfamily.unique f hf s hs hnumber
      have hown := (hall f hf).agrees
      cases h with
      | setUp n o kind hnew =>
          rw [status, number, Table.get_set, if_pos rfl]
          exact hown.setUp hnew
      | derive n o kind previous hnew hready =>
          rw [status, number, Table.get_set, if_pos rfl]
          have hprevious := hfamily.previous _ hf previous rfl
          exact hown.derive hnew (hall previous hprevious).agrees hready
      | update _ t ht =>
          have hheld := held_of_transform ht
          rcases hupdated with hupdated | hnew
          · rw [status, Table.get_modify, if_pos rfl]
            exact hown.updateBounds hheld hupdated _
          · rw [hown.transform_new hnew] at hheld
            cases hheld
    · have hkept : f.status statuses' = f.status statuses := h.get_eq hnumber
      rw [hkept]
      exact (hall f hf).agrees
  · intro hinitialized before hbefore
    apply h.initialized
    by_cases hnumber : f.number = s.number
    · obtain rfl := hfamily.unique f hf s hs hnumber
      cases h with
      | setUp n o kind _ => cases hbefore
      | derive n o kind previous hnew hready =>
          cases hbefore
          exact hready
      | update _ t ht =>
          rw [status, Table.get_modify, if_pos rfl] at hinitialized
          exact (hall f hf).previous hinitialized before hbefore
    · have hkept : f.status statuses' = f.status statuses := h.get_eq hnumber
      rw [hkept] at hinitialized
      exact (hall f hf).previous hinitialized before hbefore

theorem AllSettled.preparations (hfamily : Family stages)
    (hall : AllSettled backend updated stages statuses)
    (h : Preparations backend stages statuses statuses') :
    AllSettled backend updated stages statuses' := by
  induction h with
  | refl => exact hall
  | tail _ hchange ih =>
      obtain ⟨s, hs, hnew, hchange⟩ := hchange
      exact ih.change hfamily hs hchange (.inr hnew)

theorem AllSettled.close (hall : AllSettled backend updated stages statuses)
    (closing : List Stage) :
    AllSettled backend updated stages (closeAll closing statuses) := by
  intro f hf
  refine ⟨?_, ?_⟩
  · rw [status, get_closeAll]
    split
    · exact (hall f hf).agrees.close
    · exact (hall f hf).agrees
  · intro hinitialized before hbefore
    rw [status, initialized_closeAll] at hinitialized ⊢
    exact (hall f hf).previous hinitialized before hbefore

end Stage

end PointStream

import PointStream.Proofs.Stage.InPlace
import PointStream.Proofs.World.Course

namespace PointStream

/-- Whether a transform, if one is held, was acquired between the references of the status. -/
def Status.Acquired (backend : Backend) (own : Status) : Prop :=
  ∀ t, own.transform = some t →
    own.initialized = true ∧ backend.acquire own.input.text own.reference.text = .ok t

namespace Stage

def AllAcquired (backend : Backend) (statuses : Statuses) : Prop :=
  ∀ n, (statuses.get n).Acquired backend

variable {backend : Backend} {statuses statuses' : Statuses} {stages : List Stage} {s : Stage}
  {own : Status}

theorem acquired_of_transform_eq_none (h : own.transform = none) : own.Acquired backend := by
  intro t ht
  rw [h] at ht
  cases ht

theorem acquired_reproject (own before : Status) (r : Reprojection) (h : own.transform = none) :
    (Status.settle (own.reproject before backend r)).Acquired backend := by
  unfold Status.reproject
  dsimp only
  split
  · exact acquired_of_transform_eq_none h
  · split
    · exact acquired_of_transform_eq_none h
    · split
      · exact acquired_of_transform_eq_none h
      · next t hacquire =>
        rintro t' ⟨⟩
        exact ⟨rfl, hacquire⟩

namespace AllAcquired

theorem transform_new (h : AllAcquired backend statuses) {n : Nat}
    (hnew : (statuses.get n).initialized = false) : (statuses.get n).transform = none := by
  rw [Option.eq_none_iff_forall_ne_some]
  intro t ht
  exact Bool.noConfusion (hnew.symm.trans (h n t ht).1)

theorem change (h : AllAcquired backend statuses) (hchange : Change backend statuses s statuses') :
    AllAcquired backend statuses' := by
  intro m
  by_cases hm : m = s.number
  · subst hm
    cases hchange with
    | setUp n o kind hnew =>
        rw [number, Table.get_set, if_pos rfl]
        have hnone := h.transform_new hnew
        cases kind <;> exact acquired_of_transform_eq_none hnone
    | derive n o kind previous hnew _ =>
        rw [number, Table.get_set, if_pos rfl]
        have hnone := h.transform_new hnew
        cases kind with
        | plain p => exact acquired_of_transform_eq_none hnone
        | reprojection r => exact acquired_reproject ((statuses.get n).inherit _) _ r hnone
    | update _ t _ =>
        rw [Table.get_modify, if_pos rfl]
        exact h s.number
  · rw [hchange.get_eq hm]
    exact h m

theorem changes (h : AllAcquired backend statuses)
    (hchanges : Changes backend stages statuses statuses') : AllAcquired backend statuses' := by
  induction hchanges with
  | refl => exact h
  | tail _ hchange ih =>
      obtain ⟨s, _, hchange⟩ := hchange
      exact ih.change hchange

theorem close (h : AllAcquired backend statuses) (closing : List Stage) :
    AllAcquired backend (closeAll closing statuses) := by
  intro n
  rw [get_closeAll]
  split
  · exact acquired_of_transform_eq_none rfl
  · exact h n

end AllAcquired

end Stage

namespace Course

variable {backend : Backend} {σ : Setting} {ds : List Deed} {s : Stage} {drawn : Nat}
  {t : Transform}

theorem allAcquired (h : Course backend (Setting.start drawn) ds σ) :
    Stage.AllAcquired backend σ.world.statuses := by
  induction h with
  | nil => exact fun _ => Stage.acquired_of_transform_eq_none rfl
  | @snoc ds d σ h hd ih =>
      have hrest : Stage.AllAcquired backend (Stage.closeAll d.closing
          (Stage.preparing backend (d.pending? σ.world.statuses) σ.world.statuses)) := by
        apply Stage.AllAcquired.close
        cases hpending : d.pending? σ.world.statuses with
        | none => exact ih
        | some f =>
            have hf := hd.1 f (Deed.mem_of_pending? hpending)
            exact ih.changes (h.sound.family.changes_prepare hf)
      rw [Deed.statuses_perform]
      cases d with
      | define f =>
          intro n
          rw [Table.get_set]
          split
          · exact Stage.acquired_of_transform_eq_none rfl
          · exact ih n
      | updateBounds f => exact ih.changes Stage.changes_updateBounds
      | _ => exact hrest

/-- The transform that a stage holds leads between the references that its chain settles. -/
theorem acquire_eq (h : Course backend (Setting.start drawn) ds σ) (hs : s ∈ σ.stages)
    (ht : s.transform σ.world.statuses = .ok t) :
    backend.acquire (s.metadata backend).input.text (s.metadata backend).reference.text = .ok t := by
  obtain ⟨hready, hacquire⟩ := h.allAcquired s.number t (Stage.held_of_transform ht)
  have hmetadata := (h.allSettled s hs).agrees.metadata hready
  rw [← congrArg Metadata.input hmetadata, ← congrArg Metadata.reference hmetadata]
  exact hacquire

/-- A filter to any local system but the one that treats rows in its own way transforms a buffer if
and only if it transforms each of its points. They then are in the places of the points, and
everything else is as it was. A buffer that is not transformed does not change at all. -/
theorem reprojects_points_or_nothing (h : Course Local.backend (Setting.start drawn) ds σ)
    (hs : s ∈ σ.stages) (ht : s.transform σ.world.statuses = .ok t)
    (htarget : t.target.key ≠ "T:BULK") (b : Buffer) (hcoordinates : b.schema.HasCoordinates) :
    ∃ result b', s.reprojectInPlace σ.world.statuses b = (result, b') ∧
      (result = .ok () ↔
        ∀ row < b.count, ∃ q, s.project σ.world.statuses (b.point row) = .ok q) ∧
      match result with
      | .ok () =>
        b'.layout = b.layout ∧ b'.capacity = b.capacity ∧ b'.count = b.count ∧
        (∀ row < b.count,
          s.project σ.world.statuses (b.point row) = .ok (b'.point row) ∧
          (b'.point row).isFinite = true) ∧
        ∀ d row, d ∉ coordinateDimensions ∨ b.count ≤ row → b'.word d row = b.word d row
      | .error e => e.ofTransform = true ∧ b' = b := by
  have hacquire := h.acquire_eq hs ht
  have hgathers := Local.gathers_acquire hacquire htarget
  have hscatters := Local.scatters_acquire hacquire
  simp only [Stage.project_of_transform ht, Transform.project_eq_ok_iff]
  cases hrow : s.projectRow σ.world.statuses b.points with
  | ok qs =>
      obtain ⟨b', hreproject, ⟨hlayout, hcapacity, hcount⟩, rfl, hothers⟩ :=
        Stage.exists_reprojectInPlace hcoordinates hrow
      have hpoints := Stage.projectRow_scatters ht hscatters hrow
      have hpoint : ∀ row < b.count, t.apply (b.point row) = .ok (b'.point row) := by
        intro row hlt
        have hlt' : row < b'.points.length := by rwa [b'.length_points, hcount]
        simpa using hpoints.get (b.length_points.symm ▸ hlt) hlt'
      refine ⟨.ok (), b', hreproject, ?_, hlayout, hcapacity, hcount, ?_, hothers⟩
      · exact ⟨fun _ row hlt => ⟨_, hpoint row hlt⟩, fun _ => rfl⟩
      · exact fun row hlt => ⟨hpoint row hlt, Transform.isFinite_of_apply (hpoint row hlt)⟩
  | error e =>
      refine ⟨.error e, b, Stage.reprojectInPlace_eq_error hcoordinates hrow, ⟨nofun, ?_⟩,
        Stage.ofTransform_projectRow ht hrow, rfl⟩
      intro hall
      have hpoints : ∀ p ∈ b.points, ∃ q, t.apply p = .ok q := by
        intro p hp
        obtain ⟨row, hlt, rfl⟩ := List.mem_map.mp hp
        exact hall row (List.mem_range.mp hlt)
      obtain ⟨qs, hqs⟩ := exists_forall₂ hpoints
      rw [Stage.projectRow_of_gathers ht hgathers hqs] at hrow
      cases hrow

/-- One point beyond a limit keeps those before and behind it where they are. -/
theorem reprojects_nothing_beyond_limit :
    let s := Stage.rampTo 2 "T:SOFTZ"
    let statuses := (Setting.ofDeeds Local.backend (Deed.ofRamp 2 "T:SOFTZ")).world.statuses
    let b := Buffer.ofPoints [⟨1, 2, 3⟩, ⟨0, 100, 0⟩, ⟨4, 5, 6⟩]
    ∃ e, s.reprojectInPlace statuses b = (.error e, b) := by
  intro s statuses b
  have htransform : (s.transform statuses).isOk = true := by decide +kernel
  obtain ⟨t, ht⟩ := exists_of_isOk htransform
  have htarget : t.target.key ≠ "T:BULK" := by
    have hkey : (s.transform statuses).toOption.map (fun t => t.target.key) = some "T:SOFTZ" := by
      decide +kernel
    rw [ht] at hkey
    have hkey : t.target.key = "T:SOFTZ" := Option.some.inj hkey
    rw [hkey]
    decide
  obtain ⟨result, b', heq, hiff, hresult⟩ := reprojects_points_or_nothing
    (ofRamp Local.backend 2 "T:SOFTZ") (List.mem_cons_self ..) ht htarget b (by decide)
  cases result with
  | ok =>
      obtain ⟨q, hq⟩ := hiff.mp rfl 1 (by decide)
      have hfails : (s.project statuses (b.point 1)).isOk = false := by decide +kernel
      rw [hq] at hfails
      cases hfails
  | error e =>
      rw [hresult.2] at heq
      exact ⟨e, heq⟩

end Course

end PointStream

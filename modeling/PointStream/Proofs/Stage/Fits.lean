import PointStream.Proofs.Stage.Changes

namespace PointStream

namespace Stage

/-- Whether an initialized reprojection, closed or not, has what it needs. -/
def FitsReprojection (backend : Backend) (isClosed : Prop) (r : Reprojection) (own : Status) :
    Prop :=
  own.schema.HasCoordinates ∧
    (¬isClosed → ∃ input t, own.transform = some t ∧ backend.acquire input r.output.text = .ok t)

/-- Whether an initialized stage fits what stands before it. -/
def Fits (backend : Backend) (closed : List Nat) (statuses : Statuses) : Stage → Prop
  | source n _ (.generated g) => (statuses.get n).schema = g.schema
  | filter n _ kind previous =>
    (previous.status statuses).initialized = true ∧
      (statuses.get n).schema = (previous.status statuses).schema ∧
      match kind with
      | .reprojection r => FitsReprojection backend (n ∈ closed) r (statuses.get n)
      | .plain _ => True
  | _ => True

/-- Stages with all that stand before them, told apart by numbers that ascend. -/
structure Family (stages : List Stage) : Prop where
  previous : ∀ s ∈ stages, ∀ before, s.previous? = some before → before ∈ stages
  ascending : ∀ s ∈ stages, s.Ascending
  unique : ∀ s ∈ stages, ∀ s' ∈ stages, s.number = s'.number → s = s'

def AllFit (backend : Backend) (closed : List Nat) (stages : List Stage) (statuses : Statuses) :
    Prop :=
  ∀ s ∈ stages, (s.status statuses).initialized = true → s.Fits backend closed statuses

variable {backend : Backend} {closed closed' : List Nat} {stages : List Stage}
  {statuses statuses' : Statuses} {s f : Stage}

theorem Family.mem_of_mem_chain (h : Family stages) (hs : s ∈ stages) (hf : f ∈ s.chain) :
    f ∈ stages := by
  induction s with
  | source n o kind => exact List.mem_singleton.mp hf ▸ hs
  | loose n o kind given => exact List.mem_singleton.mp hf ▸ hs
  | filter n o kind previous ih =>
      rcases List.mem_append.mp hf with hf | hf
      · exact ih (h.previous _ hs previous rfl) hf
      · exact List.mem_singleton.mp hf ▸ hs

/-- Whether no stage is initialized before the one that it stands behind. -/
def InOrder (stages : List Stage) (statuses : Statuses) : Prop :=
  ∀ s ∈ stages, (s.status statuses).initialized = true →
    ∀ before, s.previous? = some before → (before.status statuses).initialized = true

theorem InOrder.initialized_chain (horder : InOrder stages statuses) (hfamily : Family stages)
    (hs : s ∈ stages) (h : (s.status statuses).initialized = true) :
    ∀ f ∈ s.chain, (f.status statuses).initialized = true := by
  induction s with
  | source n o kind =>
      intro f hf
      exact List.mem_singleton.mp hf ▸ h
  | loose n o kind given =>
      intro f hf
      exact List.mem_singleton.mp hf ▸ h
  | filter n o kind previous ih =>
      intro f hf
      rcases List.mem_append.mp hf with hf | hf
      · exact ih (hfamily.previous _ hs previous rfl) (horder _ hs h previous rfl) f hf
      · exact List.mem_singleton.mp hf ▸ h

theorem AllFit.inOrder (hfit : AllFit backend closed stages statuses) : InOrder stages statuses := by
  intro s hs h before hbefore
  cases s with
  | source n o kind => cases hbefore
  | loose n o kind given => cases hbefore
  | filter n o kind previous =>
      cases hbefore
      exact (hfit _ hs h).1

theorem Family.changes_prepare (h : Family stages) (hs : s ∈ stages) :
    Changes backend stages statuses (s.prepare backend statuses).2 :=
  (Stage.changes_prepare (h.ascending s hs)).mono fun _ hf => h.mem_of_mem_chain hs hf

theorem Fits.congr (h : s.Fits backend closed statuses)
    (hschema : (s.status statuses').schema = (s.status statuses).schema)
    (htransform : s.number ∉ closed' → s.number ∉ closed ∧
      (s.status statuses').transform = (s.status statuses).transform)
    (hprevious : ∀ before, s.previous? = some before →
      (before.status statuses).initialized = true →
        (before.status statuses').initialized = true ∧
        (before.status statuses').schema = (before.status statuses).schema) :
    s.Fits backend closed' statuses' := by
  match s, h with
  | source n o (.generated g), h => exact hschema.trans h
  | source n o (.plain p), _ => exact trivial
  | loose n o kind given, _ => exact trivial
  | filter n o kind before, ⟨hinitialized, hsame, hkind⟩ =>
      obtain ⟨hinitialized', hschema'⟩ := hprevious before rfl hinitialized
      refine ⟨hinitialized', hschema.trans (hsame.trans hschema'.symm), ?_⟩
      cases kind with
      | plain p => exact trivial
      | reprojection r =>
          constructor
          · rw [show (statuses'.get n).schema = (statuses.get n).schema from hschema]
            exact hkind.1
          · intro hopen
            obtain ⟨hopen, htransform⟩ := htransform hopen
            obtain ⟨input, t, ht, hacquire⟩ := hkind.2 hopen
            exact ⟨input, t, htransform.trans ht, hacquire⟩

theorem hasCoordinates_of_checkCoordinates {own : Status} (h : own.checkCoordinates = .ok ()) :
    own.schema.HasCoordinates := by
  unfold Status.checkCoordinates at h
  split at h
  · next hnil =>
    intro d hd
    simpa using List.filter_eq_nil_iff.mp hnil d hd
  · cases h

theorem fitsReprojection_of_reproject {own before : Status} {r : Reprojection}
    (h : (own.reproject before backend r).1 = .ok ()) (isClosed : Prop) :
    FitsReprojection backend isClosed r (own.reproject before backend r).2 ∧
      (own.reproject before backend r).2.schema = own.schema := by
  unfold Status.reproject at h ⊢
  dsimp only at h ⊢
  cases hcoordinates : own.checkCoordinates with
  | error e =>
      rw [hcoordinates] at h
      cases h
  | ok _ =>
      have hhas := hasCoordinates_of_checkCoordinates hcoordinates
      simp only [hcoordinates] at h ⊢
      split at h
      · cases h
      · next hinput =>
        rw [if_neg hinput]
        split at h
        · cases h
        · next t hacquire =>
          exact ⟨⟨hhas, fun _ => ⟨_, t, rfl, hacquire⟩⟩, rfl⟩

theorem initialized_derive (own before : Status) (backend : Backend) (kind : FilterKind) :
    (own.derive before backend kind).2.initialized = own.initialized := by
  cases kind with
  | plain p => rfl
  | reprojection r =>
      simp only [Status.derive, Status.reproject]
      split
      · rfl
      · split
        · rfl
        · split <;> rfl

theorem derive_of_initialized_settle {own before : Status} {kind : FilterKind}
    (hnew : own.initialized = false)
    (h : (Status.settle (own.derive before backend kind)).initialized = true) :
    (own.derive before backend kind).1 = .ok () := by
  cases hresult : (own.derive before backend kind).1 with
  | ok _ => rfl
  | error e =>
      simp only [Status.settle, hresult, initialized_derive, hnew] at h
      cases h

theorem fits_of_derive {n : Nat} {o : Options} {kind : FilterKind} {previous : Stage}
    (hnew : (statuses.get n).initialized = false)
    (hprevious : (previous.status statuses).initialized = true)
    (hget : statuses'.get n =
      Status.settle ((statuses.get n).derive (previous.status statuses) backend kind))
    (hkept : previous.status statuses' = previous.status statuses)
    (h : (statuses'.get n).initialized = true) :
    (filter n o kind previous).Fits backend closed statuses' := by
  rw [hget] at h
  have hderived := derive_of_initialized_settle hnew h
  have hsettled : statuses'.get n =
      { ((statuses.get n).derive (previous.status statuses) backend kind).2 with
        initialized := true } := by
    simp only [hget, Status.settle, hderived]
  refine ⟨hkept ▸ hprevious, ?_⟩
  rw [hsettled, hkept]
  cases kind with
  | plain p => exact ⟨rfl, trivial⟩
  | reprojection r =>
      obtain ⟨hfits, hschema⟩ := fitsReprojection_of_reproject hderived (n ∈ closed)
      exact ⟨hschema, hfits⟩

theorem Fits.change_of_new (h : f.Fits backend closed statuses)
    (hchange : Change backend statuses s statuses')
    (hnew : (s.status statuses).initialized = false) (hne : f.number ≠ s.number) :
    f.Fits backend closed statuses' := by
  have hown : f.status statuses' = f.status statuses := hchange.get_eq hne
  refine h.congr (congrArg _ hown) (fun hopen => ⟨hopen, congrArg _ hown⟩) ?_
  intro before _ hbefore
  have hkept : before.status statuses' = before.status statuses := by
    apply hchange.get_eq
    intro heq
    rw [status, heq] at hbefore
    exact Bool.noConfusion (hbefore.symm.trans hnew)
  rw [hkept]
  exact ⟨hbefore, rfl⟩

theorem get_modify_bounds (statuses : Statuses) (n : Nat) (box : Status → Bounds) (m : Nat) :
    ((statuses.modify n fun own => { own with bounds := box own }).get m).initialized =
        (statuses.get m).initialized ∧
      ((statuses.modify n fun own => { own with bounds := box own }).get m).schema =
        (statuses.get m).schema ∧
      ((statuses.modify n fun own => { own with bounds := box own }).get m).transform =
        (statuses.get m).transform := by
  rw [Table.get_modify]
  split
  · next h =>
    subst h
    exact ⟨rfl, rfl, rfl⟩
  · exact ⟨rfl, rfl, rfl⟩

/-- No change takes its fit from any stage. -/
theorem AllFit.change (hfamily : Family stages) (hs : s ∈ stages)
    (hfit : AllFit backend closed stages statuses) (h : Change backend statuses s statuses') :
    AllFit backend closed stages statuses' := by
  intro f hf hinitialized
  -- A stage that is set up or derived was not initialized, so no initialized stage stands right
  -- behind it.
  have hother (hnew : (s.status statuses).initialized = false) (hne : f.number ≠ s.number) :
      f.Fits backend closed statuses' := by
    have hown : f.status statuses' = f.status statuses := h.get_eq hne
    exact (hfit f hf (hown ▸ hinitialized)).change_of_new h hnew hne
  cases h with
  | setUp n o kind hnew =>
      by_cases hnumber : f.number = n
      · obtain rfl := hfamily.unique f hf _ hs hnumber
        cases kind with
        | plain p => exact trivial
        | generated g =>
            change ((statuses.set n _).get n).schema = g.schema
            rw [Table.get_set, if_pos rfl]
            rfl
      · exact hother hnew hnumber
  | derive n o kind previous hnew hprevious =>
      by_cases hnumber : f.number = n
      · obtain rfl := hfamily.unique f hf _ hs hnumber
        have hlt : previous.number < n := (hfamily.ascending _ hf).1
        refine fits_of_derive hnew hprevious ((Table.get_set ..).trans (if_pos rfl)) ?_ hinitialized
        exact (Table.get_set ..).trans (if_neg (Nat.ne_of_lt hlt))
      · exact hother hnew hnumber
  | update _ t ht =>
      have hkept := get_modify_bounds statuses s.number (Status.transformBounds t ·.bounds)
      obtain ⟨hown, hschema, htransform⟩ := hkept f.number
      refine (hfit f hf (hown.symm.trans hinitialized)).congr hschema
        (fun hopen => ⟨hopen, htransform⟩) ?_
      intro before _ hbefore
      obtain ⟨hinitialized, hschema, _⟩ := hkept before.number
      exact ⟨hinitialized.trans hbefore, hschema⟩

theorem AllFit.changes (hfamily : Family stages) (hfit : AllFit backend closed stages statuses)
    (h : Changes backend stages statuses statuses') :
    AllFit backend closed stages statuses' := by
  induction h with
  | refl => exact hfit
  | tail _ hchange ih =>
      obtain ⟨s, hs, hchange⟩ := hchange
      exact ih.change hfamily hs hchange

def closeAll (stages : List Stage) (statuses : Statuses) : Statuses :=
  stages.foldr (fun s statuses => s.close statuses) statuses

theorem get_closeAll (closing : List Stage) (statuses : Statuses) (n : Nat) :
    (closeAll closing statuses).get n =
      if n ∈ closing.map number then { statuses.get n with transform := none }
      else statuses.get n := by
  induction closing with
  | nil => rfl
  | cons s closing ih =>
      change (Table.modify (closeAll closing statuses) s.number _).get n = _
      rw [Table.get_modify, List.map_cons]
      by_cases hn : n = s.number
      · subst hn
        rw [if_pos rfl, ih, if_pos (List.mem_cons_self ..)]
        split <;> rfl
      · rw [if_neg hn, ih]
        simp only [List.mem_cons, hn, false_or]

theorem AllFit.close (hfit : AllFit backend closed stages statuses) {closing : List Stage}
    (hclosed : ∀ s ∈ closing, (s.status statuses).initialized = true → s.number ∈ closed')
    (hmore : ∀ n ∈ closed, n ∈ closed') :
    AllFit backend closed' stages (closeAll closing statuses) := by
  have hkept (m : Nat) :
      ((closeAll closing statuses).get m).initialized = (statuses.get m).initialized ∧
        ((closeAll closing statuses).get m).schema = (statuses.get m).schema := by
    rw [get_closeAll]
    split <;> exact ⟨rfl, rfl⟩
  intro f hf hinitialized
  have hinitialized := (hkept f.number).1.symm.trans hinitialized
  refine (hfit f hf hinitialized).congr (hkept f.number).2 ?_ ?_
  · intro hopen
    refine ⟨fun h => hopen (hmore _ h), ?_⟩
    have hnot : f.number ∉ closing.map number := by
      intro h
      obtain ⟨s, hs, hnumber⟩ := List.mem_map.mp h
      refine hopen (hnumber ▸ hclosed s hs ?_)
      rw [status, hnumber]
      exact hinitialized
    change ((closeAll closing statuses).get f.number).transform = _
    rw [get_closeAll, if_neg hnot]
    rfl
  · intro before _ hbefore
    exact ⟨(hkept before.number).1.trans hbefore, (hkept before.number).2⟩

/-- The reference that a reprojection leads to. -/
def output? : Stage → Option SpatialReference
  | filter _ _ (.reprojection r) _ => some r.output
  | _ => none

namespace AllFit

variable {g : Generator}

theorem schema_eq (hfit : AllFit backend closed stages statuses) (hfamily : Family stages)
    (hs : s ∈ stages) (hg : s.generator? = some g) (h : (s.status statuses).initialized = true) :
    (s.status statuses).schema = g.schema := by
  induction s, hg using generator?_induction with
  | source n o => exact hfit _ hs h
  | reprojection n o r previous hprevious ih =>
      obtain ⟨hinitialized, hschema, _⟩ := hfit _ hs h
      exact hschema.trans (ih (hfamily.previous _ hs previous rfl) hinitialized)

theorem hasCoordinates (hfit : AllFit backend closed stages statuses) (hfamily : Family stages)
    (hs : s ∈ stages) (hg : s.generator? = some g) (h : (s.status statuses).initialized = true)
    (hfilter : s.isFilter = true) : g.schema.HasCoordinates := by
  rw [← hfit.schema_eq hfamily hs hg h]
  cases s, hg using generator?_induction with
  | source n o => cases hfilter
  | reprojection n o r previous hprevious => exact (hfit _ hs h).2.2.1

theorem exists_transform (hfit : AllFit backend closed stages statuses) (hfamily : Family stages)
    (hs : s ∈ stages) (hg : s.generator? = some g) (h : (s.status statuses).initialized = true)
    (hopen : ∀ f ∈ s.chain, f.isFilter = true → f.number ∉ closed) :
    ∀ f ∈ s.chain, f.isFilter = true → ∃ t input output, f.output? = some output ∧
      f.transform statuses = .ok t ∧ backend.acquire input output.text = .ok t := by
  induction s, hg using generator?_induction with
  | source n o =>
      intro f hf hfilter
      rw [List.mem_singleton.mp hf] at hfilter
      cases hfilter
  | reprojection n o r previous hprevious ih =>
      obtain ⟨hinitialized, _, hfits⟩ := hfit _ hs h
      intro f hf hfilter
      rcases List.mem_append.mp hf with hf | hf
      · exact ih (hfamily.previous _ hs previous rfl) hinitialized
          (fun f hf => hopen f (List.mem_append_left _ hf)) f hf hfilter
      · rw [List.mem_singleton.mp hf]
        obtain ⟨input, t, ht, hacquire⟩ := hfits.2 (hopen _ (self_mem_chain _) rfl)
        refine ⟨t, input, r.output, rfl, ?_, hacquire⟩
        unfold transform
        simp only [isReprojection, status, number, ht]
        rfl

end AllFit

end Stage

end PointStream

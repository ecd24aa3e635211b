import PointStream.Proofs.World.Acquired
import PointStream.Proofs.World.Holding
import Mathlib.Logic.Function.Iterate

namespace PointStream

namespace Stage

/-- The box of a stage as far as it is known. -/
def box (s : Stage) (statuses : Statuses) : Bounds :=
  (s.status statuses).bounds

/-- Where the transform between the references that a chain settles takes a box. -/
def move (backend : Backend) (s : Stage) (box : Bounds) : Bounds :=
  let m := s.metadata backend
  box.moved (backend.point? m.input.text m.reference.text)

variable {backend : Backend} {updated : Prop} {stages : List Stage} {statuses : Statuses}
  {s f previous : Stage} {n : Nat} {o : Options} {r : Reprojection} {t : Transform}
  {own before : Status}

theorem box_set_self (h : s.number = n) (statuses : Statuses) (own : Status) :
    s.box (statuses.set n own) = own.bounds := by
  rw [box, status, Table.get_set, if_pos h]

theorem box_set_of_lt (h : s.number < n) (statuses : Statuses) (own : Status) :
    s.box (statuses.set n own) = s.box statuses := by
  rw [box, status, Table.get_set, if_neg (Nat.ne_of_lt h)]
  rfl

theorem bounds_settle (derived : Except Failure Unit × Status) :
    (Status.settle derived).bounds = derived.2.bounds := by
  unfold Status.settle
  split <;> rfl

theorem bounds_derive (hbefore : previous.Agrees backend updated before)
    (hready : before.initialized = true)
    (h : (own.derive before backend (.reprojection r)).1 = .ok ()) :
    (own.derive before backend (.reprojection r)).2.bounds =
      (filter n o (.reprojection r) previous).move backend before.bounds := by
  have hreference : before.reference = (previous.metadata backend).reference :=
    congrArg Metadata.reference (hbefore.metadata hready)
  have hderive := (own.inherit before).reproject_eq before backend r (m := before.metadata) rfl rfl
  rw [show (own.inherit before).reproject before backend r =
    own.derive before backend (.reprojection r) from rfl] at hderive
  split at hderive
  · obtain ⟨input, heq⟩ := hderive
    rw [heq] at h
    cases h
  · obtain ⟨t, _, heq⟩ := hderive
    rw [heq]
    change before.bounds.moved (backend.point? (r.input.getD before.reference).text _) = _
    rw [hreference]
    rfl

theorem AllSettled.box_of_readies (hfamily : Family stages)
    (hall : AllSettled backend updated stages statuses) (hs : s ∈ stages)
    (h : Readies backend statuses s (filter n o (.reprojection r) previous)) :
    (filter n o (.reprojection r) previous).box (s.prepare backend statuses).2 =
      (filter n o (.reprojection r) previous).move backend
        (previous.box (s.prepare backend statuses).2) := by
  -- Along the stages that prepare one another down to this one; those behind it have greater numbers,
  -- so what is set for them leaves the two boxes alone.
  generalize hf : filter n o (.reprojection r) previous = f at h ⊢
  induction h with
  | @self f h =>
      subst hf
      have hbefore := hfamily.previous _ hs previous rfl
      have hlt : previous.number < n := (hfamily.ascending _ hs).1
      cases hnew : (statuses.get n).initialized with
      | true =>
          rw [prepare_of_initialized (s := filter n o (.reprojection r) previous) hnew] at h
          cases h
      | false =>
          have hsettled := hall.ensure hfamily hbefore
          rw [prepare_filter hnew] at h ⊢
          split at h
          · cases h
          · next ready hensure =>
            have hready : (previous.status (previous.ensure backend statuses).2).initialized = true :=
              initialized_ensure (congrArg Prod.fst hensure)
            rw [hensure] at hsettled hready
            dsimp only
            rw [box_set_self (n := n) rfl, box_set_of_lt hlt, bounds_settle]
            exact bounds_derive (hsettled previous hbefore).agrees hready h
  | @before n' o' kind next f hnew hnext h ih =>
      subst hf
      have hmem := hfamily.previous _ hs next rfl
      have hchain := ((hall.readies_iff hfamily hmem).mp h).1
      have hle := number_le_of_mem_chain (hfamily.ascending _ hmem) hchain
      have hlt : n < n' := Nat.lt_of_le_of_lt hle (hfamily.ascending _ hs).1
      have hbefore : previous.number < n :=
        (hfamily.ascending _ (hfamily.mem_of_mem_chain hmem hchain)).1
      have hbox := ih hmem rfl
      rw [← ensure_of_new hnext] at hbox
      rw [prepare_filter hnew]
      split
      · next hensure =>
        rw [hensure] at hbox
        exact hbox
      · next hensure =>
        rw [hensure] at hbox
        rw [box_set_of_lt hlt, box_set_of_lt (Nat.lt_trans hbefore hlt)]
        exact hbox

theorem box_updateBounds (hfamily : Family stages) (hs : s ∈ stages) (hf : f ∈ stages)
    (ht : s.transform statuses = .ok t)
    (hacquire : backend.acquire (s.metadata backend).input.text (s.metadata backend).reference.text =
      .ok t) :
    s.box (f.updateBounds statuses).2 =
      if f.number == s.number then s.move backend (s.box statuses) else s.box statuses := by
  by_cases hnumber : f.number = s.number
  · obtain rfl := hfamily.unique f hf s hs hnumber
    rw [updateBounds, ht, box, status, Table.get_modify, if_pos rfl, if_pos (beq_self_eq_true _)]
    exact Status.transformBounds_eq_moved hacquire _
  · rw [if_neg (mt beq_iff_eq.mp hnumber)]
    unfold updateBounds
    split
    · rfl
    · rw [box, status, Table.get_modify, if_neg (Ne.symm hnumber)]
      rfl

end Stage

variable {backend : Backend} {σ σ' : Setting} {d : Deed} {ds ds' : List Deed} {s previous : Stage}
  {drawn n : Nat} {o : Options} {r : Reprojection}

namespace Deed

/-- Whether a deed updates the box of a stage. -/
def updates (s : Stage) : Deed → Bool
  | updateBounds f => f.number == s.number
  | _ => false

theorem box_of_readies (hsound : σ.Sound backend) {updated : Prop}
    (hall : Stage.AllSettled backend updated σ.stages σ.world.statuses) (hd : d.Allowed σ)
    (h : d.Readies backend σ (.filter n o (.reprojection r) previous)) :
    (Stage.filter n o (.reprojection r) previous).box (d.perform backend σ).world.statuses =
      (Stage.filter n o (.reprojection r) previous).move backend
        (previous.box (d.perform backend σ).world.statuses) := by
  obtain ⟨t, hpending, hreadies⟩ := h
  have hbox := hall.box_of_readies hsound.family (hd.1 t (mem_of_pending? hpending)) hreadies
  have hrest : Stage.closeAll d.closing (Stage.preparing backend (d.pending? σ.world.statuses)
      σ.world.statuses) = (t.prepare backend σ.world.statuses).2 := by
    rw [closing_of_pending? hpending, hpending]
    rfl
  rw [← hrest] at hbox
  rw [statuses_perform]
  cases d with
  | define f => cases hpending
  | updateBounds f => cases hpending
  | _ => exact hbox

end Deed

namespace Course

/-- As long as a stage holds its transform, its box is moved by each update and by nothing else. -/
theorem box_perform (h : Course backend (Setting.start drawn) ds σ) (hd : d.Allowed σ)
    (hs : s ∈ σ.stages) (hopen : s.IsOpen σ.world.statuses) :
    s.box (d.perform backend σ).world.statuses =
      if d.updates s then s.move backend (s.box σ.world.statuses) else s.box σ.world.statuses := by
  obtain ⟨t, ht⟩ := hopen
  have hready := (h.allAcquired s.number t (Stage.held_of_transform ht)).1
  have hrest : s.box (Stage.closeAll d.closing
      (Stage.preparing backend (d.pending? σ.world.statuses) σ.world.statuses)) =
        s.box σ.world.statuses := by
    have hkept : (Stage.preparing backend (d.pending? σ.world.statuses) σ.world.statuses).get
        s.number = σ.world.statuses.get s.number := by
      cases hpending : d.pending? σ.world.statuses with
      | none => rfl
      | some f =>
          have hf := hd.1 f (Deed.mem_of_pending? hpending)
          exact (Stage.preparations_prepare (h.sound.family.ascending f hf)).get_of_initialized hready
    rw [Stage.box, Stage.status, Stage.get_closeAll, hkept]
    split <;> rfl
  rw [Deed.statuses_perform]
  cases d with
  | define f => exact Stage.box_set_of_lt (h.sound.below s hs) _ _
  | updateBounds f =>
      have hf := hd.1 f (List.mem_singleton.mpr rfl)
      exact Stage.box_updateBounds h.sound.family hs hf ht (h.acquire_eq hs ht)
  | _ => exact hrest

theorem isOpen_of_isOpen (h₁ : Course backend (Setting.start drawn) ds σ)
    (h : Course backend σ ds' σ') (hs : s ∈ σ.stages) (hkind : s.isReprojection = true)
    (hready : (s.status σ.world.statuses).initialized = true)
    (hopen : s.IsOpen σ'.world.statuses) : s.IsOpen σ.world.statuses := by
  by_contra hshut
  exact h₁.not_isOpen_of_initialized h hs hkind hready hshut hopen

theorem box_eq_iterate (h₁ : Course backend (Setting.start drawn) ds σ)
    (h : Course backend σ ds' σ') (hs : s ∈ σ.stages) (hkind : s.isReprojection = true)
    (hready : (s.status σ.world.statuses).initialized = true)
    (hopen : s.IsOpen σ'.world.statuses) :
    s.box σ'.world.statuses =
      (s.move backend)^[ds'.countP (Deed.updates s)] (s.box σ.world.statuses) := by
  induction h with
  | nil => rfl
  | @snoc ds' d σ' h hd ih =>
      have hstart := h₁.trans h
      have hmem := h.mem_stages hs
      have hopen' : s.IsOpen σ'.world.statuses :=
        hstart.isOpen_of_isOpen (.snoc .nil hd) hmem hkind (h.initialized h₁.sound hs hready) hopen
      rw [hstart.box_perform hd hmem hopen', ih hopen', List.countP_append, List.countP_singleton]
      split
      · rw [Nat.add_comm, Function.iterate_add_apply, Function.iterate_one]
      · rfl

/-- A reprojection that a deed readies has the box of the stage before it, moved once. As long as it
holds its transform from then on, each update moves the box again; so all updates leave the box as it
was derived if and only if to move it again does. -/
theorem updates_move_again (h : Course backend (Setting.start drawn) ds σ) (hd : d.Allowed σ)
    (hreadies : d.Readies backend σ (.filter n o (.reprojection r) previous)) :
    let s := Stage.filter n o (.reprojection r) previous
    let ready := d.perform backend σ
    let derived := s.move backend (previous.box ready.world.statuses)
    s.IsOpen ready.world.statuses ∧ s.box ready.world.statuses = derived ∧
      (∀ ds' σ', Course backend ready ds' σ' → s.IsOpen σ'.world.statuses →
        s.box σ'.world.statuses = (s.move backend)^[ds'.countP (Deed.updates s)] derived) ∧
      ((∀ ds' σ', Course backend ready ds' σ' → s.IsOpen σ'.world.statuses →
        s.box σ'.world.statuses = derived) ↔ s.move backend derived = derived) := by
  intro s ready derived
  obtain ⟨t, hpending, hmem, hchain, _⟩ := (Deed.readies_iff h.sound h.allSettled hd).mp hreadies
  have hs : s ∈ σ.stages := h.sound.family.mem_of_mem_chain hmem hchain
  have hmore : s ∈ ready.stages := Deed.mem_stages_perform hs
  have hstart : Course backend (Setting.start drawn) (ds ++ [d]) ready := .snoc h hd
  have hopen : s.IsOpen ready.world.statuses := by
    rw [Deed.isOpen_perform_iff h.sound h.allSettled hd hs rfl, Deed.closing_of_pending? hpending]
    exact ⟨.inl hreadies, List.not_mem_nil⟩
  have hbox : s.box ready.world.statuses = derived :=
    Deed.box_of_readies h.sound h.allSettled hd hreadies
  have hready : (s.status ready.world.statuses).initialized = true := by
    obtain ⟨held, ht⟩ := hopen
    exact (hstart.allAcquired s.number held (Stage.held_of_transform ht)).1
  have hupdates : ∀ ds' σ', Course backend ready ds' σ' → s.IsOpen σ'.world.statuses →
      s.box σ'.world.statuses = (s.move backend)^[ds'.countP (Deed.updates s)] derived := by
    intro ds' σ' h' hopen'
    rw [← hbox]
    exact hstart.box_eq_iterate h' hmore rfl hready hopen'
  refine ⟨hopen, hbox, hupdates, ?_, ?_⟩
  · intro hsame
    have hallowed : (Deed.updateBounds s).Allowed ready :=
      ⟨fun _ hf => List.mem_singleton.mp hf ▸ hmore, nofun⟩
    have hopen' : s.IsOpen ((Deed.updateBounds s).perform backend ready).world.statuses := by
      rw [Deed.isOpen_perform_iff hstart.sound hstart.allSettled hallowed hmore rfl]
      exact ⟨.inr hopen, List.not_mem_nil⟩
    have hcourse : Course backend ready [.updateBounds s] _ := .snoc .nil hallowed
    have hmoved := hupdates _ _ hcourse hopen'
    have hcount : [Deed.updateBounds s].countP (Deed.updates s) = 1 := by
      simp [Deed.updates]
    rw [hcount, Function.iterate_one] at hmoved
    rw [← hmoved]
    exact hsame _ _ hcourse hopen'
  · intro hfixed ds' σ' h' hopen'
    rw [hupdates ds' σ' h' hopen']
    exact Function.iterate_fixed hfixed _

theorem readies_ramp :
    (Deed.prepare (.rampTo 2 "T:SHIFT")).Readies Local.backend
      (Setting.ofDeeds Local.backend [.define (.ramp 2), .define (.rampTo 2 "T:SHIFT")])
      (.rampTo 2 "T:SHIFT") :=
  ⟨_, rfl, .self rfl⟩

theorem updates_move_ramp_again :
    let s := Stage.rampTo 2 "T:SHIFT"
    let ready := Setting.ofDeeds Local.backend (Deed.ofRamp 2 "T:SHIFT")
    (Deed.prepare s).Readies Local.backend
        (Setting.ofDeeds Local.backend [.define (.ramp 2), .define s]) s ∧
      s.box ready.world.statuses = ⟨⟨-100, 50, -7.25⟩, ⟨-98, 52, -5.25⟩⟩ ∧
      s.box ((Deed.updateBounds s).perform Local.backend ready).world.statuses =
        ⟨⟨-200, 100, -14.5⟩, ⟨-198, 102, -12.5⟩⟩ := by
  intro s ready
  obtain ⟨hopen, hbox, hupdates, _⟩ := updates_move_again
    (defineRamp Local.backend 2 "T:SHIFT") (allowed_prepare_ramp Local.backend 2 "T:SHIFT")
    readies_ramp
  have hcourse : Course Local.backend ready [.updateBounds s] _ :=
    .snoc .nil ⟨fun _ hf => List.mem_singleton.mp hf ▸ List.mem_cons_self .., nofun⟩
  refine ⟨readies_ramp, hbox.trans (by decide +kernel), ?_⟩
  exact (hupdates _ _ hcourse ⟨_, rfl⟩).trans (by decide +kernel)

/-- Not every box remains what it was derived to be. -/
theorem not_derived_once :
    ¬∀ (ds : List Deed) (σ : Setting) (d : Deed) (n : Nat) (o : Options) (r : Reprojection)
      (previous : Stage), Course Local.backend (Setting.start 0) ds σ → d.Allowed σ →
      d.Readies Local.backend σ (.filter n o (.reprojection r) previous) →
      ∀ ds' σ', Course Local.backend (d.perform Local.backend σ) ds' σ' →
        (Stage.filter n o (.reprojection r) previous).IsOpen σ'.world.statuses →
        (Stage.filter n o (.reprojection r) previous).box σ'.world.statuses =
          (Stage.filter n o (.reprojection r) previous).move Local.backend
            (previous.box (d.perform Local.backend σ).world.statuses) := by
  intro hderived
  have hcourse : Course Local.backend (Setting.ofDeeds Local.backend (Deed.ofRamp 2 "T:SHIFT"))
      [.updateBounds (.rampTo 2 "T:SHIFT")] _ :=
    .snoc .nil ⟨fun _ hf => List.mem_singleton.mp hf ▸ List.mem_cons_self .., nofun⟩
  have hsame := hderived _ _ _ _ _ _ _ (defineRamp Local.backend 2 "T:SHIFT")
    (allowed_prepare_ramp Local.backend 2 "T:SHIFT") readies_ramp _ _ hcourse ⟨_, rfl⟩
  exact absurd hsame (by decide +kernel)

end Course

end PointStream

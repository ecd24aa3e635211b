import PointStream.Proofs.Cursor.Failing
import PointStream.Proofs.Stage.Extent
import PointStream.Proofs.World.Acquired

namespace PointStream

namespace Stage

variable {s : Stage} {g : Generator}

theorem bounds_metadata (hs : s.generator? = some g) :
    (s.metadata Local.backend).bounds = s.boundsIn (.doubles g) := by
  induction s, hs using generator?_induction with
  | source n o => rfl
  | reprojection n o r previous hprevious ih =>
      have hmove : Local.backend.point?
          (r.input.getD (previous.metadata Local.backend).reference).text r.output.text =
            (filter n o (.reprojection r) previous).moveIn (.doubles g) :=
        funext fun p => Local.backend_point? _ _ p
      change Bounds.moved _ _ = Box.moved _ _
      rw [ih, hmove, Bounds.moved_eq]

end Stage

namespace Course

variable {σ : Setting} {ds : List Deed} {s : Stage} {drawn : Nat} {g : Generator} {p q : Point}

theorem carryIn_of_carry (h : Course Local.backend (Setting.start drawn) ds σ) (hs : s ∈ σ.stages)
    (hsource : s.generator? = some g) (hcarry : s.carry σ.world.statuses p = .ok q) :
    s.carryIn (.doubles g) p = some q := by
  induction s, hsource using Stage.generator?_induction generalizing q with
  | source n o =>
      cases hcarry
      rfl
  | reprojection n o r previous hprevious ih =>
      obtain ⟨m, hm, hq⟩ := Stage.carry_filter_eq_ok_iff.mp hcarry
      have hbefore := h.sound.family.previous _ hs previous rfl
      cases ht : (Stage.filter n o (.reprojection r) previous).transform σ.world.statuses with
      | error e =>
          simp only [Stage.project, ht] at hq
          cases hq
      | ok t =>
          rw [Stage.project_of_transform ht] at hq
          have hmove := Backend.toOption_project (h.acquire_eq hs ht) m
          rw [hq, Local.backend_point?] at hmove
          simp only [Stage.carryIn, ih hbefore hm, Option.bind_some]
          exact hmove.symm

theorem pointIn_of_read (h : Course Local.backend (Setting.start drawn) ds σ) (hs : s ∈ σ.stages)
    (hsource : s.generator? = some g) (htotal : g.total < 2 ^ 64) {c c' : Cursor} {i : Nat}
    {b left : Buffer} {n : Amount} (hc : c.WalksOver s) (hindex : c.index = .whole i)
    (hcoordinates : b.schema.HasCoordinates)
    (hread : c.read σ.world.statuses b = (.ok n, c', left)) :
    ∀ r < left.count, i + r < g.total ∧
      s.pointIn (.doubles g) g (i + r) = some (left.point r) := by
  have hover : Cursor.Over g i s c := by
    rw [hc.eq_cursorAt hsource, hindex]
    exact Stage.over_cursorAt hsource i
  cases hrow : s.carryRow σ.world.statuses (g.row i (min b.capacity (g.total - i))) with
  | error e =>
      obtain ⟨_, _, hfails, _⟩ := hover.exists_read_of_error htotal (fun _ => hcoordinates) hrow
      rw [hread] at hfails
      cases hfails
  | ok qs =>
      obtain ⟨_, filled, hgives, _, hcount, hoverlays⟩ :=
        hover.exists_read htotal (fun _ => hcoordinates) hrow
      rw [hread] at hgives
      obtain ⟨-, -, rfl⟩ : _ ∧ _ ∧ left = filled := by simpa using hgives
      have hholds : s.Holds σ.world.statuses Transform.Scatters := by
        intro f hf hfilter
        obtain ⟨t, ht, _⟩ := Stage.holds_of_carryRow hsource hrow f hf hfilter
        have hmem := h.sound.family.mem_of_mem_chain hs hf
        exact ⟨t, ht, Local.scatters_acquire (h.acquire_eq hmem ht)⟩
      have hpoints := Stage.forall₂_of_carryRow hsource hholds hrow
      have hlength : qs.length = left.count := by
        rw [hcount, ← hpoints.length_eq, Generator.length_row]
      intro r hr
      refine ⟨by omega, ?_⟩
      have hlt : r < qs.length := hlength ▸ hr
      have hcarry : s.carry σ.world.statuses (g.pointAt (i + r)) = .ok qs[r] := by
        simpa [Generator.row] using hpoints.get (hpoints.length_eq ▸ hlt) hlt
      rw [hoverlays.point_written hcoordinates hlt]
      exact h.carryIn_of_carry hs hsource hcarry

/-- An initialized stage reports the box that its chain settles, and a read over it gives the points
that its chain settles. Both are read over doubles in this. Read over the rational numbers, the box
encloses the points, whatever box in order the chain starts from and whatever places are drawn, if
all corners get through the chain. -/
theorem encloses_points (h : Course Local.backend (Setting.start drawn) ds σ)
    (hquiet : ∀ f, .updateBounds f ∉ ds) (hs : s ∈ σ.stages) (hsource : s.generator? = some g)
    (hready : (s.status σ.world.statuses).initialized = true) :
    ((s.status σ.world.statuses).bounds = s.boundsIn (.doubles g) ∧
      (g.total < 2 ^ 64 → ∀ (c c' : Cursor) (i : Nat) (b left : Buffer) (n : Amount),
        c.WalksOver s → c.index = .whole i → b.schema.HasCoordinates →
        c.read σ.world.statuses b = (.ok n, c', left) →
        ∀ r < left.count, i + r < g.total ∧
          s.pointIn (.doubles g) g (i + r) = some (left.point r))) ∧
    ∀ (box : Box ℚ) (places : Nat → Triple ℚ), box.minimum ≤ box.maximum →
      (∀ i, (places i).IsDraw) → s.TakesCorners (.exact box places) →
      s.Encloses (.exact box places) g := by
  refine ⟨⟨?_, ?_⟩, ?_⟩
  · have hbounds := (h.allSettled s hs).agrees.bounds hready fun ⟨f, hf⟩ => hquiet f hf
    rw [hbounds, Stage.bounds_metadata hsource]
  · intro htotal c c' i b left n hc hindex hcoordinates hread
    exact h.pointIn_of_read hs hsource htotal hc hindex hcoordinates hread
  · intro box places hbox hplaces hcorners
    exact hcorners.encloses g hbox hplaces

theorem encloses_mixed_ramp :
    ((Stage.rampTo 2 "T:MIXED").status
        (Setting.ofDeeds Local.backend (Deed.ofRamp 2 "T:MIXED")).world.statuses).bounds =
      (Stage.rampTo 2 "T:MIXED").boundsIn (.doubles (.ramp 2)) ∧
    (Stage.rampTo 2 "T:MIXED").Encloses
      (.exact ⟨Triple.all 0, Triple.all 2⟩ fun _ => Triple.all (1 / 2)) (.ramp 2) := by
  have hquiet : ∀ f, Deed.updateBounds f ∉ Deed.ofRamp 2 "T:MIXED" := by
    intro f hf
    simp [Deed.ofRamp] at hf
  obtain ⟨⟨hbounds, _⟩, hexact⟩ := encloses_points (ofRamp Local.backend 2 "T:MIXED") hquiet
    (List.mem_cons_self ..) rfl (by decide +kernel)
  exact ⟨hbounds, hexact _ _ (by decide +kernel) (fun _ => by decide +kernel)
    ⟨trivial, by decide +kernel, by decide +kernel⟩⟩

end Course

end PointStream

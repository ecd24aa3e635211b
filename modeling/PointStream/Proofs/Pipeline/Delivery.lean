import PointStream.Proofs.Pipeline.Draining
import PointStream.Proofs.World.Reachable

namespace PointStream

namespace Run.Drains

variable {backend : Backend} {r r' r'' : Run} {w w' w'' : World} {bs bs' : List Buffer}
  {outcome outcome' : Except Failure Unit}

theorem unique (h : Drains backend r w bs outcome w' r')
    (h' : Drains backend r w bs' outcome' w'' r'') :
    bs = bs' ∧ outcome = outcome' ∧ w' = w'' ∧ r' = r'' := by
  induction h generalizing bs' with
  | failed h =>
      cases h' with
      | failed h' =>
          cases h.symm.trans h'
          exact ⟨rfl, rfl, rfl, rfl⟩
      | ended h' => cases h.symm.trans h'
      | delivered h' _ => cases h.symm.trans h'
  | ended h =>
      cases h' with
      | failed h' => cases h.symm.trans h'
      | ended h' =>
          cases h.symm.trans h'
          exact ⟨rfl, rfl, rfl, rfl⟩
      | delivered h' _ => cases h.symm.trans h'
  | delivered h _ ih =>
      cases h' with
      | failed h' => cases h.symm.trans h'
      | ended h' => cases h.symm.trans h'
      | delivered h' hrest' =>
          cases h.symm.trans h'
          obtain ⟨rfl, hsame⟩ := ih hrest'
          exact ⟨rfl, hsame⟩

theorem not_of_next (h : (r.next backend w).1.isOk = false) :
    ¬∃ bs w' r', Drains backend r w bs (.ok ()) w' r' := by
  rintro ⟨bs, w', r', hdrains⟩
  cases hdrains with
  | ended hnext =>
      rw [hnext] at h
      cases h
  | delivered hnext _ =>
      rw [hnext] at h
      cases h

end Run.Drains

/-- A pipeline of a chain over generated points in a setting that can be reached, where preparing it
succeeds or has succeeded, and no filter of it was closed after that. -/
structure Standard (backend : Backend) (σ : Setting) (p : Pipeline) (s : Stage) (g : Generator)
    (w : World) : Prop where
  reachable : σ.Reachable backend
  stages_eq : p.stages = s.chain
  mem : ∀ f ∈ p.stages, f ∈ σ.stages
  generator?_eq : s.generator? = some g
  total_lt : g.total < 2 ^ 64
  prepare_eq : p.prepare backend σ.world = (.ok (), w)
  not_closed : ∀ f ∈ s.chain, f.isFilter = true → f.number ∉ σ.closed

/-- The pipeline of a ramp and a reprojection behind it. -/
def Pipeline.ofRamp (corner : Double) (output : String) : Pipeline :=
  ⟨0, (Stage.rampTo corner output).chain⟩

def Setting.ofRamp (corner : Double) (output : String) : Setting :=
  .pair (.ramp corner) (.rampTo corner output)

def World.ofRamp (corner : Double) (output : String) : World :=
  ((Pipeline.ofRamp corner output).prepare Local.backend (Setting.ofRamp corner output).world).2

/-- Whether a run of such a pipeline does not end well although all points are carried. -/
def Pipeline.RampFails (corner : Double) (output : String) (chunk : Nat) : Prop :=
  ((Pipeline.ofRamp corner output).prepare Local.backend (Setting.ofRamp corner output).world).1 =
      .ok () ∧
    (∀ j < (Generator.ramp corner).total, ((Stage.rampTo corner output).carry
      (World.ofRamp corner output).statuses ((Generator.ramp corner).pointAt j)).isOk = true) ∧
    ¬∃ bs w' r', Run.Drains Local.backend (Run.start (.ofRamp corner output) (.whole chunk))
      (Setting.ofRamp corner output).world bs (.ok ()) w' r'

/-- Whether no filter of a chain leads to the local system that treats rows in its own way. -/
def Stage.AvoidsBulk (s : Stage) : Prop :=
  ∀ f ∈ s.chain, ∀ output ∈ f.output?, ∀ e ∈ Local.find? output.text, e.key ≠ "T:BULK"

instance (s : Stage) : Decidable s.AvoidsBulk :=
  inferInstanceAs (Decidable (∀ f ∈ s.chain, ∀ output ∈ f.output?,
    ∀ e ∈ Local.find? output.text, e.key ≠ "T:BULK"))

/-- Whether a buffer can hold chunks of a size. -/
def Generator.Holds (g : Generator) (chunk : Nat) : Prop :=
  0 < chunk ∧ chunk < 2 ^ 63 ∧ chunk * g.schema.byteSize < 2 ^ 63

instance (g : Generator) (chunk : Nat) : Decidable (g.Holds chunk) :=
  inferInstanceAs (Decidable (0 < chunk ∧ chunk < 2 ^ 63 ∧ chunk * g.schema.byteSize < 2 ^ 63))

theorem Stage.getLast?_chain (s : Stage) : s.chain.getLast? = some s := by
  cases s <;> simp [chain]

theorem Stage.sourceTotal_eq {s : Stage} {g : Generator} (hs : s.generator? = some g) :
    s.sourceTotal = g.total := by
  induction s, hs using generator?_induction with
  | source n o => rfl
  | reprojection n o r previous h ih => exact ih

namespace Standard

variable {backend : Backend} {σ : Setting} {p : Pipeline} {s : Stage} {g : Generator} {w : World}
  {c : Nat}

theorem last_eq (h : Standard backend σ p s g w) : p.last = .ok s := by
  simp only [Pipeline.last, h.stages_eq, Stage.getLast?_chain]

theorem stage_mem (h : Standard backend σ p s g w) : s ∈ σ.stages :=
  h.mem s (h.stages_eq ▸ s.self_mem_chain)

theorem sound (h : Standard backend σ p s g w) : (σ.at_ w).Sound backend :=
  (Setting.sound_of_reachable h.reachable).preparePipeline h.mem h.prepare_eq

theorem initialized (h : Standard backend σ p s g w) :
    (s.status w.statuses).initialized = true :=
  Pipeline.initialized_last_of_prepare h.last_eq h.prepare_eq

theorem of_ramp {corner : Double} {output : String}
    (hprepare : ((Pipeline.ofRamp corner output).prepare Local.backend
      (Setting.ofRamp corner output).world).1 = .ok ()) :
    Standard Local.backend (Setting.ofRamp corner output) (Pipeline.ofRamp corner output)
      (.rampTo corner output) (.ramp corner) (World.ofRamp corner output) where
  reachable := Setting.reachable_pair Local.backend rfl rfl rfl rfl
  stages_eq := rfl
  mem := by
    intro f hf
    exact List.mem_reverse.mpr hf
  generator?_eq := rfl
  total_lt := by
    change 3 < 2 ^ 64
    decide
  prepare_eq := Prod.ext hprepare rfl
  not_closed := by
    intro f _ _ hf
    cases hf

theorem exists_transform (h : Standard backend σ p s g w) :
    ∀ f ∈ s.chain, f.isFilter = true → ∃ t input output, f.output? = some output ∧
      f.transform w.statuses = .ok t ∧ backend.acquire input output.text = .ok t :=
  h.sound.fits.exists_transform h.sound.family h.stage_mem h.generator?_eq h.initialized
    h.not_closed

theorem holds_of_avoidsBulk (h : Standard Local.backend σ p s g w) (hbulk : s.AvoidsBulk) :
    s.Holds w.statuses fun t => t.Gathers ∧ t.Scatters := by
  intro f hf hfilter
  obtain ⟨t, input, output, houtput, ht, hacquire⟩ := h.exists_transform f hf hfilter
  obtain ⟨e, he, hkey⟩ := Local.exists_of_find (Backend.acquire_eq_ok hacquire).1
  have htarget : t.target.key ≠ "T:BULK" := hkey ▸ hbulk f hf output houtput e he
  exact ⟨t, ht, Local.gathers_acquire hacquire htarget, Local.scatters_acquire hacquire⟩

theorem exists_supply (h : Standard backend σ p s g w) (hc : g.Holds c) :
    ∃ u : Supply, u.stage = s ∧ u.generator = g ∧ u.statuses = w.statuses ∧ u.chunk = c ∧
      u.Poised backend 0 (Run.start p (.whole c)) σ.world := by
  obtain ⟨hpos, hlt, hbytes⟩ := hc
  have hfit := h.sound.fits
  have hfamily := h.sound.family
  obtain ⟨cursor, hcursor, hover⟩ := Stage.exists_cursor h.generator?_eq
    (hfit.inOrder.initialized_chain hfamily h.stage_mem h.initialized)
  have hschema := hfit.schema_eq hfamily h.stage_mem h.generator?_eq h.initialized
  refine ⟨{
    stage := s
    generator := g
    statuses := w.statuses
    layout := ⟨(s.status w.statuses).schema, .stage s.root⟩
    chunk := c
    generator?_eq := h.generator?_eq
    total_lt := h.total_lt
    hasCoordinates := hfit.hasCoordinates hfamily h.stage_mem h.generator?_eq h.initialized
    schema_eq := hschema
    chunk_pos := hpos
    chunk_lt := hlt
    bytes_lt := hbytes }, rfl, rfl, rfl, rfl, rfl, cursor, w.setCount p.number 0, hover, rfl,
    (Table.get_set ..).trans (if_pos rfl), ?_⟩
  apply Run.next_start hpos h.prepare_eq
  have hcursor : s.cursor w.statuses = .ok cursor := hcursor
  have hlayout : s.layout w.statuses = .ok ⟨(s.status w.statuses).schema, .stage s.root⟩ := by
    simp only [Stage.layout, Stage.known, h.initialized]
    rfl
  simp only [Run.outset, World.setCount, h.last_eq, bind, Except.bind, hcursor, hlayout]
  rfl

/-- If the chain carries all points, a run of a standard pipeline delivers them all, each in its
row, in full buffers but for the last one, and to execute the pipeline gives their number. A row of
points must be transformed if each of them is, and a buffer must be able to hold a chunk. -/
theorem delivers_all (h : Standard backend σ p s g w) (hc : g.Holds c)
    (hgathers : ∀ f ∈ s.chain, ∀ t, f.transform w.statuses = .ok t → t.Gathers)
    {Q : Nat → Point} (hQ : ∀ j < g.total, s.carry w.statuses (g.pointAt j) = .ok (Q j)) :
    (∃ bs w' r', Run.Drains backend (Run.start p (.whole c)) σ.world bs (.ok ()) w' r' ∧
      bs.length = (g.total + c - 1) / c ∧
      bs.map Buffer.count =
        List.replicate (g.total / c) c ++ (if g.total % c = 0 then [] else [g.total % c]) ∧
      (∀ b ∈ bs, 0 < b.count) ∧
      bs.flatMap Buffer.wordRows =
        (List.range g.total).map fun j => g.schema.wordRow (Q j) j) ∧
    (p.execute backend (.whole c) σ.world).1 = .ok g.total := by
  obtain ⟨u, rfl, rfl, hstatuses, rfl, hpoised⟩ := h.exists_supply hc
  have hholds : u.stage.Holds u.statuses Transform.Gathers := by
    intro f hf hfilter
    obtain ⟨t, _, _, _, ht, _⟩ := h.exists_transform f hf hfilter
    exact ⟨t, hstatuses ▸ ht, hgathers f hf t ht⟩
  rw [← hstatuses] at hQ
  obtain ⟨bs, w', r', hdrains, hcounts, hrows, hcount, _⟩ :=
    Supply.drains_of_points hholds hQ hpoised
  have hlength : bs.length = (u.generator.total + u.chunk - 1) / u.chunk := by
    rw [← Supply.length_chunkSizes u.chunk_pos, ← hcounts, List.length_map]
  have hpos : ∀ b ∈ bs, 0 < b.count := by
    intro b hb
    exact Supply.pos_of_mem_chunkSizes u.chunk_pos (hcounts ▸ List.mem_map_of_mem hb)
  refine ⟨⟨bs, w', r', hdrains, hlength, hcounts, hpos, ?_⟩, ?_⟩
  · rw [hrows, Supply.rows]
    simp only [Nat.zero_add]
  · have hfuel : bs.length < u.generator.total + 1 := by
      have hmul := Nat.le_mul_of_pos_right u.generator.total u.chunk_pos
      rw [hlength, Nat.div_lt_iff_lt_mul u.chunk_pos, Nat.succ_mul]
      have hpos := u.chunk_pos
      omega
    have hdrain := hdrains.drain_eq hfuel
    unfold Pipeline.execute
    rw [h.stages_eq, Stage.getLast?_chain]
    simp only [Option.map_some, Option.getD_some, Stage.sourceTotal_eq h.generator?_eq, hdrain]
    exact congrArg Except.ok hcount

/-- Not even points that all are carried need be delivered: no buffer can hold some chunks, and a
transform may refuse a row of points each of which it transforms. -/
theorem not_delivers_all :
    Pipeline.RampFails 2 "T:SHIFT" (2 ^ 63) ∧ Pipeline.RampFails 100 "T:BULK" 3 :=
  ⟨⟨rfl, by decide +kernel, Run.Drains.not_of_next (by decide +kernel)⟩,
    ⟨rfl, by decide +kernel, Run.Drains.not_of_next (by decide +kernel)⟩⟩

theorem delivers_shifted_ramp :
    (∃ bs w' r', Run.Drains Local.backend (Run.start (.ofRamp 2 "T:SHIFT") (.whole (2 : Nat)))
        (Setting.ofRamp 2 "T:SHIFT").world bs (.ok ()) w' r' ∧
      bs.map Buffer.count = [2, 1]) ∧
    ((Pipeline.ofRamp 2 "T:SHIFT").execute Local.backend (.whole (2 : Nat))
      (Setting.ofRamp 2 "T:SHIFT").world).1 = .ok 3 := by
  have hstandard : Standard Local.backend (Setting.ofRamp 2 "T:SHIFT")
      (Pipeline.ofRamp 2 "T:SHIFT") (.rampTo 2 "T:SHIFT") (.ramp 2) (World.ofRamp 2 "T:SHIFT") :=
    of_ramp rfl
  have hgathers : ∀ f ∈ (Stage.rampTo 2 "T:SHIFT").chain, ∀ t,
      f.transform (World.ofRamp 2 "T:SHIFT").statuses = .ok t → t.Gathers := by
    intro f hf t ht
    obtain ⟨t', ht', hgathers, _⟩ := hstandard.holds_of_avoidsBulk (by decide) f hf
      (Stage.isFilter_of_transform ht)
    cases ht.symm.trans ht'
    exact hgathers
  have hcarried : ∀ j < (Generator.ramp 2).total, ((Stage.rampTo 2 "T:SHIFT").carry
      (World.ofRamp 2 "T:SHIFT").statuses ((Generator.ramp 2).pointAt j)).isOk = true := by
    decide +kernel
  have hpoint : Nonempty Point := ⟨Triple.all 0⟩
  choose! Q hQ using fun j hj => exists_of_isOk (hcarried j hj)
  obtain ⟨⟨bs, w', r', hdrains, _, hcounts, _, _⟩, hexecute⟩ :=
    delivers_all hstandard (c := 2) (by decide) hgathers hQ
  exact ⟨⟨bs, w', r', hdrains, hcounts⟩, hexecute⟩

/-- Over local systems a run of a standard pipeline fails if and only if the chain fails to carry
some point. It then fails with a failure of a transform, after the full chunks of the points before
the first such point, which are counted, and has come to its end. Behind a single reprojection the
failure names that point as it came from the source. -/
theorem fails_at_first (h : Standard Local.backend σ p s g w) (hbulk : s.AvoidsBulk)
    (hc : g.Holds c) :
    ∃ bs outcome w' r',
      Run.Drains Local.backend (Run.start p (.whole c)) σ.world bs outcome w' r' ∧
      (outcome = .ok () ↔ ∀ j < g.total, ∃ q, s.carry w.statuses (g.pointAt j) = .ok q) ∧
      ∀ first < g.total, ∀ e, s.carry w.statuses (g.pointAt first) = .error e →
        ∀ Q : Nat → Point, (∀ j < first, s.carry w.statuses (g.pointAt j) = .ok (Q j)) →
          ∃ e', outcome = .error e' ∧ e'.ofTransform = true ∧
            bs.map Buffer.count = List.replicate (first / c) c ∧
            bs.flatMap Buffer.wordRows =
              (List.range (first / c * c)).map (fun j => g.schema.wordRow (Q j) j) ∧
            w'.count p.number = first / c * c ∧ r'.phase = .ended ∧
            (s.chain.length = 2 → ∃ d, e' = .pointProjection (g.pointAt first) d) := by
  obtain ⟨u, rfl, rfl, hstatuses, rfl, hpoised⟩ := h.exists_supply hc
  have hholds := h.holds_of_avoidsBulk hbulk
  rw [← hstatuses] at hholds ⊢
  have hgathers := hholds.imp fun _ => And.left
  have hscatters := hholds.imp fun _ => And.right
  have hpoint : Nonempty Point := ⟨Triple.all 0⟩
  by_cases hall : ∀ j < u.generator.total, ∃ q,
      u.stage.carry u.statuses (u.generator.pointAt j) = .ok q
  · choose! Q hQ using hall
    obtain ⟨bs, w', r', hdrains, _⟩ := Supply.drains_of_points hgathers hQ hpoised
    refine ⟨bs, _, w', r', hdrains, ⟨fun _ j hj => ⟨Q j, hQ j hj⟩, fun _ => rfl⟩, ?_⟩
    intro first hfirst e hfails
    rw [hQ first hfirst] at hfails
    cases hfails
  · obtain ⟨first, hfirst, hnot, hbefore⟩ := exists_first hall
    choose! Q hQ using hbefore
    obtain ⟨e, hfails⟩ : ∃ e, u.stage.carry u.statuses (u.generator.pointAt first) = .error e := by
      cases hcarry : u.stage.carry u.statuses (u.generator.pointAt first) with
      | error e => exact ⟨e, rfl⟩
      | ok q => exact absurd ⟨q, hcarry⟩ hnot
    obtain ⟨bs, e', w', r', hdrains, _⟩ :=
      Supply.drains_of_failure hgathers hscatters hQ hfirst hfails hpoised
    refine ⟨bs, .error e', w', r', hdrains, ⟨nofun, ?_⟩, ?_⟩
    · intro hall
      exact absurd (hall first hfirst) hnot
    -- Whatever index is said to be the first, the run from it is the one run there is.
    intro first' hfirst' e hfails' Q' hQ'
    obtain ⟨bs', e'', w'', r'', hdrains', htransform, hcounts, hrows, hrest⟩ :=
      Supply.drains_of_failure hgathers hscatters hQ' hfirst' hfails' hpoised
    obtain ⟨rfl, houtcome, rfl, rfl⟩ := hdrains.unique hdrains'
    refine ⟨e'', houtcome, htransform, hcounts, ?_, hrest⟩
    rw [hrows, Supply.rows]
    simp only [Nat.zero_add]

/-- A run may also fail where no point does, as no buffer can hold some chunks. -/
theorem not_fails_at_first :
    (Stage.rampTo 2 "T:SHIFT").AvoidsBulk ∧ Pipeline.RampFails 2 "T:SHIFT" (2 ^ 62) :=
  ⟨by decide, rfl, by decide +kernel, Run.Drains.not_of_next (by decide +kernel)⟩

/-- The last of three points lies beyond a limit; the two before it come in a buffer. -/
theorem fails_at_last_of_ramp :
    ∃ bs e w' r', Run.Drains Local.backend (Run.start (.ofRamp 100 "T:CAP") (.whole (2 : Nat)))
        (Setting.ofRamp 100 "T:CAP").world bs (.error e) w' r' ∧
      bs.map Buffer.count = [2] ∧ w'.count 0 = 2 ∧
      ∃ d, e = .pointProjection ((Generator.ramp 100).pointAt 2) d := by
  have hstandard : Standard Local.backend (Setting.ofRamp 100 "T:CAP")
      (Pipeline.ofRamp 100 "T:CAP") (.rampTo 100 "T:CAP") (.ramp 100) (World.ofRamp 100 "T:CAP") :=
    of_ramp rfl
  have hcarried : ∀ j < 2, ((Stage.rampTo 100 "T:CAP").carry
      (World.ofRamp 100 "T:CAP").statuses ((Generator.ramp 100).pointAt j)).isOk = true := by
    decide +kernel
  have hlast : ((Stage.rampTo 100 "T:CAP").carry (World.ofRamp 100 "T:CAP").statuses
      ((Generator.ramp 100).pointAt 2)).isOk = false := by
    decide +kernel
  have hpoint : Nonempty Point := ⟨Triple.all 0⟩
  choose! Q hQ using fun j hj => exists_of_isOk (hcarried j hj)
  obtain ⟨e₀, hfails⟩ := exists_of_not_isOk hlast
  obtain ⟨bs, outcome, w', r', hdrains, _, hfirst⟩ :=
    fails_at_first hstandard (c := 2) (by decide) (by decide)
  obtain ⟨e, rfl, _, hcounts, _, hcount, _, hpoint⟩ := hfirst 2 (by decide) e₀ hfails Q hQ
  exact ⟨bs, e, w', r', hdrains, hcounts, hcount, hpoint rfl⟩

end Standard

end PointStream

import PointStream.Pipeline.Run
import PointStream.Proofs.Cursor.Position

/-!
# Draining runs

A run that is asked for buffers until it ends gives a list of buffers, and ends well or with a
failure. What it gives is followed chunk by chunk: as long as the points of a chunk get through the
chain, the run goes on with the next chunk where the last one ended.
-/

namespace PointStream

namespace Run

/-- A run that is asked until it ends: the buffers it gives, how it ends, and the world and the run
after that. -/
inductive Drains (backend : Backend) :
    Run → World → List Buffer → Except Failure Unit → World → Run → Prop
  | failed {r r' : Run} {w w' : World} {e : Failure}
    (h : r.next backend w = (.error e, w', r')) : Drains backend r w [] (.error e) w' r'
  | ended {r r' : Run} {w w' : World}
    (h : r.next backend w = (.ok none, w', r')) : Drains backend r w [] (.ok ()) w' r'
  | delivered {r r₁ r' : Run} {w w₁ w' : World} {b : Buffer} {bs : List Buffer}
    {outcome : Except Failure Unit} (h : r.next backend w = (.ok (some b), w₁, r₁))
    (hrest : Drains backend r₁ w₁ bs outcome w' r') :
    Drains backend r w (b :: bs) outcome w' r'

variable {backend : Backend} {r r' : Run} {w w' : World} {bs : List Buffer}
  {outcome : Except Failure Unit}

theorem chunkSize_natCast {c : Nat} (hchunk : r.chunk = .whole c) (hpos : 0 < c) :
    r.chunkSize = .ok (.whole c) := by
  have hle : ¬(Number.whole c).le (.whole 0) = true := by
    simp only [Number.le_whole, decide_eq_true_eq]
    omega
  simp only [chunkSize, hchunk, Value.number?, hle]
  rfl

theorem next_start {p : Pipeline} {c : Nat} {cursor : Cursor} {layout : Layout} (hpos : 0 < c)
    (hprepare : p.prepare backend w = (.ok (), w'))
    (houtset : outset p (w'.setCount p.number 0) = .ok (cursor, layout)) :
    (start p (.whole c)).next backend w =
      (start p (.whole c)).draw (w'.setCount p.number 0) (.whole c) cursor layout := by
  have hsize : (start p (.whole c)).chunkSize = .ok (.whole c) := chunkSize_natCast rfl hpos
  change (start p (.whole c)).enter backend w = _
  have hpipeline : (start p (.whole c)).pipeline = p := rfl
  simp only [enter, hsize, hpipeline, hprepare, houtset]

theorem Drains.drain_eq (h : Drains backend r w bs outcome w' r') {fuel : Nat}
    (hfuel : bs.length < fuel) : r.drain backend fuel w = (outcome, w') := by
  induction h generalizing fuel with
  | failed h =>
      obtain ⟨fuel, rfl⟩ := Nat.exists_eq_add_one.mpr hfuel
      simp only [drain, h]
  | ended h =>
      obtain ⟨fuel, rfl⟩ := Nat.exists_eq_add_one.mpr hfuel
      simp only [drain, h]
  | delivered h _ ih =>
      obtain ⟨fuel, rfl⟩ := Nat.exists_eq_add_one.mpr (Nat.zero_lt_of_lt hfuel)
      simp only [drain, h]
      exact ih (Nat.lt_of_succ_lt_succ hfuel)

end Run

/-- What a run draws on: a chain whose buffers have the coordinates if it reprojects, and chunks
that a buffer can hold. -/
structure Supply where
  stage : Stage
  generator : Generator
  statuses : Statuses
  layout : Layout
  chunk : Nat
  generator?_eq : stage.generator? = some generator
  total_lt : generator.total < 2 ^ 64
  hasCoordinates : stage.isFilter = true → generator.schema.HasCoordinates
  schema_eq : layout.schema = generator.schema
  chunk_pos : 0 < chunk
  chunk_lt : chunk < 2 ^ 63
  bytes_lt : chunk * generator.schema.byteSize < 2 ^ 63

namespace Supply

variable (u : Supply)

def size (i : Nat) : Nat :=
  min u.chunk (u.generator.total - i)

/-- The result of the chain for the chunk from an index on. -/
def carried (i : Nat) : Except Failure (List Point) :=
  u.stage.carryRow u.statuses (u.generator.row i (u.size i))

/-- Whether the next buffer of a run is to be drawn from an index on, all points before it being
counted. -/
def Poised (backend : Backend) (i : Nat) (r : Run) (w : World) : Prop :=
  r.chunk = .whole u.chunk ∧
    ∃ cursor w₀, cursor.Over u.generator i u.stage ∧ w₀.statuses = u.statuses ∧
      w₀.count r.pipeline.number = i ∧
      r.next backend w = r.draw w₀ (.whole u.chunk) cursor u.layout

variable {u} {backend : Backend} {i : Nat} {r : Run} {w : World} {qs : List Point} {e : Failure}

theorem make_chunk : Buffer.make u.layout (.whole u.chunk) = .ok (.blank u.layout u.chunk) := by
  have hnonneg : ¬(Number.whole u.chunk).lt (.whole 0) = true := by simp
  have hlt := u.chunk_lt
  have hbytes := u.bytes_lt
  have hsize :
      ¬((2 : Int) ^ 63 ≤ u.chunk ∨ (2 : Int) ^ 63 ≤ u.chunk * u.layout.schema.byteSize) := by
    rw [u.schema_eq]
    omega
  simp only [Buffer.make, hnonneg, Number.toInt, if_neg hsize]
  rfl

theorem coordinates_blank (hfilter : u.stage.isFilter = true) :
    (Buffer.blank u.layout u.chunk).schema.HasCoordinates := by
  change u.layout.schema.HasCoordinates
  rw [u.schema_eq]
  exact u.hasCoordinates hfilter

theorem next_of_error (h : u.Poised backend i r w) (hcarried : u.carried i = .error e) :
    ∃ w', r.next backend w = (.error e, w', r.finish) ∧ w'.count r.pipeline.number = i := by
  obtain ⟨_, cursor, w₀, hover, hstatuses, hcount, hnext⟩ := h
  change u.stage.carryRow u.statuses _ = _ at hcarried
  obtain ⟨cursor', filled, hread, _⟩ := hover.exists_read_of_error
    (b := .blank u.layout u.chunk) u.total_lt coordinates_blank hcarried
  refine ⟨w₀, ?_, hcount⟩
  rw [hnext]
  simp only [Run.draw, make_chunk, hstatuses, hread]

theorem exists_read {cursor : Cursor} (h : cursor.Over u.generator i u.stage)
    (hcarried : u.carried i = .ok qs) :
    ∃ cursor' filled, cursor.read u.statuses (.blank u.layout u.chunk) =
        (.ok (.whole (u.size i)), cursor', filled) ∧
      cursor'.Over u.generator (i + u.size i) u.stage ∧
      filled.count = u.size i ∧
      Buffer.Overlays (.blank u.layout u.chunk) filled (Buffer.written qs i) :=
  h.exists_read u.total_lt coordinates_blank hcarried

theorem next_of_end (h : u.Poised backend i r w) (hcarried : u.carried i = .ok qs)
    (hsize : u.size i = 0) :
    ∃ w', r.next backend w = (.ok none, w', r.finish) ∧ w'.count r.pipeline.number = i := by
  obtain ⟨_, cursor, w₀, hover, hstatuses, hcount, hnext⟩ := h
  obtain ⟨cursor', filled, hread, _⟩ := exists_read hover hcarried
  refine ⟨w₀, ?_, hcount⟩
  rw [hnext]
  simp only [Run.draw, make_chunk, hstatuses, hread, hsize, Amount.wholePart, if_true]

/-- A chunk with points that get through the chain gives a buffer of them. If the buffer is full the
run goes on behind it, and otherwise it ends. -/
theorem next_of_points (h : u.Poised backend i r w) (hcarried : u.carried i = .ok qs)
    (hsize : 0 < u.size i) :
    ∃ b w' r', r.next backend w = (.ok (some b), w', r') ∧ r'.pipeline = r.pipeline ∧
      b.count = u.size i ∧
      Buffer.Overlays (.blank u.layout u.chunk) b (Buffer.written qs i) ∧
      (u.size i = u.chunk → u.Poised backend (i + u.chunk) r' w') ∧
      (u.size i < u.chunk → r'.next backend w' = (.ok none, w', r'.finish) ∧
        w'.count r.pipeline.number = i + u.size i) := by
  obtain ⟨hchunk, cursor, w₀, hover, hstatuses, hcount, hnext⟩ := h
  obtain ⟨cursor', filled, hread, hover', hfilled, hoverlays⟩ := exists_read hover hcarried
  have hdraw : r.next backend w =
      (.ok (some filled), w₀.setCount r.pipeline.number (i + u.size i),
        { r with phase := .delivered cursor' u.layout (u.size i) }) := by
    rw [hnext]
    simp only [Run.draw, make_chunk, hstatuses, hread, Amount.wholePart,
      if_neg (Nat.ne_of_gt hsize), hcount]
  have hcount' : (w₀.setCount r.pipeline.number (i + u.size i)).count r.pipeline.number =
      i + u.size i :=
    (Table.get_set ..).trans (if_pos rfl)
  have hsizeOf (phase : Phase) : ({ r with phase } : Run).chunkSize = .ok (.whole u.chunk) :=
    Run.chunkSize_natCast hchunk u.chunk_pos
  refine ⟨filled, _, _, hdraw, rfl, hfilled, hoverlays, ?_, ?_⟩
  · intro hfull
    rw [hfull] at hover' hcount' ⊢
    refine ⟨hchunk, cursor', w₀.setCount r.pipeline.number (i + u.chunk), hover', hstatuses,
      hcount', ?_⟩
    have hlt : ¬(Number.whole u.chunk).lt (.whole u.chunk) = true := by simp
    simp only [Run.next, hsizeOf, hlt]
    rfl
  · intro hshort
    refine ⟨?_, hcount'⟩
    have hlt : (Number.whole (u.size i)).lt (.whole u.chunk) = true := by
      simpa using hshort
    simp only [Run.next, hsizeOf, hlt, if_true]

/-- The words of rows with points of consecutive indices. -/
def rows (u : Supply) (Q : Nat → Point) (start count : Nat) : List (List UInt64) :=
  (List.range count).map fun r => u.generator.schema.wordRow (Q (start + r)) (start + r)

theorem rows_append (u : Supply) (Q : Nat → Point) (start m n : Nat) :
    u.rows Q start (m + n) = u.rows Q start m ++ u.rows Q (start + m) n := by
  simp [rows, List.range_add, Function.comp_def, Nat.add_assoc]

variable {Q : Nat → Point} {limit : Nat}

section

variable (hQ : ∀ j < limit, u.stage.carry u.statuses (u.generator.pointAt j) = .ok (Q j))

include hQ

theorem forall₂_row {m : Nat} (hlimit : i + m ≤ limit) :
    List.Forall₂ (fun p q => u.stage.carry u.statuses p = .ok q) (u.generator.row i m)
      ((List.range m).map fun r => Q (i + r)) := by
  rw [Generator.row, List.forall₂_map_left_iff, List.forall₂_map_right_iff, List.forall₂_same]
  intro r hr
  have hlt := List.mem_range.mp hr
  exact hQ (i + r) (by omega)

variable (hgathers : u.stage.Holds u.statuses Transform.Gathers)

include hgathers

theorem carried_of_points (hlimit : i + u.size i ≤ limit) :
    u.carried i = .ok ((List.range (u.size i)).map fun r => Q (i + r)) :=
  Stage.carryRow_of_forall₂ u.generator?_eq hgathers (forall₂_row hQ hlimit)

theorem exists_buffer (h : u.Poised backend i r w) (hlimit : i + u.size i ≤ limit)
    (hsize : 0 < u.size i) :
    ∃ b w' r', r.next backend w = (.ok (some b), w', r') ∧ r'.pipeline = r.pipeline ∧
      b.count = u.size i ∧ b.wordRows = u.rows Q i (u.size i) ∧
      (u.size i = u.chunk → u.Poised backend (i + u.chunk) r' w') ∧
      (u.size i < u.chunk → r'.next backend w' = (.ok none, w', r'.finish) ∧
        w'.count r.pipeline.number = i + u.size i) := by
  obtain ⟨b, w', r', hnext, hpipeline, hcount, hoverlays, hfull, hshort⟩ :=
    next_of_points h (carried_of_points hQ hgathers hlimit) hsize
  refine ⟨b, w', r', hnext, hpipeline, hcount, ?_, hfull, hshort⟩
  rw [hoverlays.wordRows_written hcount, u.schema_eq, rows]

theorem exists_full (hend : limit ≤ u.generator.total) (k : Nat)
    (h : u.Poised backend i r w) (hlimit : i + k * u.chunk ≤ limit) :
    ∃ bs w₁ r₁, bs.map Buffer.count = List.replicate k u.chunk ∧
      bs.flatMap Buffer.wordRows = u.rows Q i (k * u.chunk) ∧
      r₁.pipeline = r.pipeline ∧ u.Poised backend (i + k * u.chunk) r₁ w₁ ∧
      ∀ {bs' outcome w' r'}, Run.Drains backend r₁ w₁ bs' outcome w' r' →
        Run.Drains backend r w (bs ++ bs') outcome w' r' := by
  induction k generalizing i r w with
  | zero =>
      refine ⟨[], w, r, rfl, ?_, rfl, ?_, fun hrest => hrest⟩
      · simp [rows]
      · rwa [Nat.zero_mul, Nat.add_zero]
  | succ k ih =>
      have hsum : (k + 1) * u.chunk = u.chunk + k * u.chunk := by
        rw [Nat.succ_mul, Nat.add_comm]
      have hsize : u.size i = u.chunk := by
        unfold size
        omega
      obtain ⟨b, w', r', hnext, hpipeline, hcount, hrows, hpoised, _⟩ :=
        exists_buffer hQ hgathers h (by omega) (hsize ▸ u.chunk_pos)
      obtain ⟨bs, w₁, r₁, hcounts, hflat, hpipeline', hpoised', hdrains⟩ :=
        ih (hpoised hsize) (by omega)
      refine ⟨b :: bs, w₁, r₁, ?_, ?_, hpipeline'.trans hpipeline, ?_, ?_⟩
      · rw [List.map_cons, hcounts, hcount, hsize, List.replicate_succ]
      · rw [List.flatMap_cons, hrows, hflat, hsize, hsum, rows_append]
      · rw [hsum, ← Nat.add_assoc]
        exact hpoised'
      · intro bs' outcome w' r' hrest
        exact .delivered hnext (hdrains hrest)

end

/-- The sizes of the chunks of a number of points, of which only the last one may be short. -/
def chunkSizes (total chunk : Nat) : List Nat :=
  List.replicate (total / chunk) chunk ++ if total % chunk = 0 then [] else [total % chunk]

theorem length_chunkSizes {total chunk : Nat} (hchunk : 0 < chunk) :
    (chunkSizes total chunk).length = (total + chunk - 1) / chunk := by
  have hdiv := Nat.div_add_mod' total chunk
  have hmod := Nat.mod_lt total hchunk
  unfold chunkSizes
  split
  · next hzero =>
    have hsum : total + chunk - 1 = chunk - 1 + total / chunk * chunk := by omega
    have hlast : (chunk - 1) / chunk = 0 := Nat.div_eq_of_lt (by omega)
    rw [hsum, Nat.add_mul_div_right _ _ hchunk, hlast]
    simp
  · next hrest =>
    have hsum : total + chunk - 1 = total % chunk - 1 + (total / chunk + 1) * chunk := by
      rw [Nat.succ_mul]
      omega
    have hlast : (total % chunk - 1) / chunk = 0 := Nat.div_eq_of_lt (by omega)
    rw [hsum, Nat.add_mul_div_right _ _ hchunk, hlast]
    simp

theorem pos_of_mem_chunkSizes {total chunk n : Nat} (hchunk : 0 < chunk)
    (h : n ∈ chunkSizes total chunk) : 0 < n := by
  rcases List.mem_append.mp h with h | h
  · rw [List.eq_of_mem_replicate h]
    exact hchunk
  · split at h
    · cases h
    · next hrest =>
      rw [List.mem_singleton.mp h]
      exact Nat.pos_of_ne_zero hrest

theorem drains_of_points (hgathers : u.stage.Holds u.statuses Transform.Gathers)
    (hQ : ∀ j < u.generator.total, u.stage.carry u.statuses (u.generator.pointAt j) = .ok (Q j))
    (h : u.Poised backend 0 r w) :
    ∃ bs w' r', Run.Drains backend r w bs (.ok ()) w' r' ∧
      bs.map Buffer.count = chunkSizes u.generator.total u.chunk ∧
      bs.flatMap Buffer.wordRows = u.rows Q 0 u.generator.total ∧
      w'.count r.pipeline.number = u.generator.total ∧ r'.phase = .ended := by
  have hdiv := Nat.div_add_mod' u.generator.total u.chunk
  have hmod := Nat.mod_lt u.generator.total u.chunk_pos
  obtain ⟨bs, w₁, r₁, hcounts, hflat, hpipeline, hpoised, hdrains⟩ :=
    exists_full hQ hgathers (Nat.le_refl _) (u.generator.total / u.chunk) h (by omega)
  rw [Nat.zero_add] at hpoised
  generalize hfull : u.generator.total / u.chunk * u.chunk = full at *
  have hsize : u.size full = u.generator.total % u.chunk := by
    unfold size
    omega
  by_cases hzero : u.generator.total % u.chunk = 0
  · obtain ⟨w', hnext, hcount⟩ :=
      next_of_end hpoised (carried_of_points hQ hgathers (by omega)) (hsize.trans hzero)
    refine ⟨bs, w', r₁.finish, ?_, ?_, ?_, ?_, rfl⟩
    · have hend := hdrains (.ended hnext)
      rwa [List.append_nil] at hend
    · rw [hcounts, chunkSizes, if_pos hzero, List.append_nil]
    · rw [hflat]
      congr 1
      omega
    · rw [← hpipeline, hcount]
      omega
  · obtain ⟨b, w₂, r₂, hnext, hpipeline₂, hcount, hrows, _, hshort⟩ :=
      exists_buffer hQ hgathers hpoised (by omega) (by omega)
    obtain ⟨hend, hcounted⟩ := hshort (by omega)
    refine ⟨bs ++ [b], w₂, r₂.finish, hdrains (.delivered hnext (.ended hend)), ?_, ?_, ?_, rfl⟩
    · rw [List.map_append, hcounts, List.map_singleton, hcount, hsize, chunkSizes, if_neg hzero]
    · rw [List.flatMap_append, hflat, List.flatMap_singleton, hrows, hsize]
      have hjoin := u.rows_append Q 0 full (u.generator.total % u.chunk)
      rw [Nat.zero_add] at hjoin
      rw [← hjoin]
      congr 1
    · rw [← hpipeline, hcounted]
      omega

theorem drains_of_failure {first : Nat} {e : Failure}
    (hgathers : u.stage.Holds u.statuses Transform.Gathers)
    (hscatters : u.stage.Holds u.statuses Transform.Scatters)
    (hQ : ∀ j < first, u.stage.carry u.statuses (u.generator.pointAt j) = .ok (Q j))
    (hfirst : first < u.generator.total)
    (hfails : u.stage.carry u.statuses (u.generator.pointAt first) = .error e)
    (h : u.Poised backend 0 r w) :
    ∃ bs e' w' r', Run.Drains backend r w bs (.error e') w' r' ∧ e'.ofTransform = true ∧
      bs.map Buffer.count = List.replicate (first / u.chunk) u.chunk ∧
      bs.flatMap Buffer.wordRows = u.rows Q 0 (first / u.chunk * u.chunk) ∧
      w'.count r.pipeline.number = first / u.chunk * u.chunk ∧ r'.phase = .ended ∧
      (u.stage.chain.length = 2 → ∃ d, e' = .pointProjection (u.generator.pointAt first) d) := by
  have hdiv := Nat.div_add_mod' first u.chunk
  have hmod := Nat.mod_lt first u.chunk_pos
  obtain ⟨bs, w₁, r₁, hcounts, hflat, hpipeline, hpoised, hdrains⟩ :=
    exists_full hQ hgathers (Nat.le_of_lt hfirst) (first / u.chunk) h (by omega)
  rw [Nat.zero_add] at hpoised
  generalize hfull : first / u.chunk * u.chunk = full at *
  -- The first point that fails lies in the chunk behind the full ones, with points before it that
  -- get through and others behind it.
  have hsize : u.size full = (first - full) + (u.size full - (first - full) - 1 + 1) := by
    unfold size
    omega
  have hrow : u.generator.row full (u.size full) =
      u.generator.row full (first - full) ++ u.generator.pointAt first ::
        u.generator.row (first + 1) (u.size full - (first - full) - 1) := by
    have hat : full + (first - full) = first := by omega
    rw [hsize, Generator.row_append, Generator.row_succ, hat, ← hsize]
  have hps := forall₂_row hQ (i := full) (m := first - full) (by omega)
  obtain ⟨e', hcarried⟩ : ∃ e', u.carried full = .error e' := by
    cases hcarried : u.carried full with
    | error e' => exact ⟨e', rfl⟩
    | ok qs =>
        have hpoints := Stage.forall₂_of_carryRow u.generator?_eq hscatters hcarried
        rw [hrow] at hpoints
        obtain ⟨q, hq⟩ := exists_of_forall₂ hpoints
          (List.mem_append_right _ (List.mem_cons_self ..))
        rw [hfails] at hq
        cases hq
  obtain ⟨w', hnext, hcount⟩ := next_of_error hpoised hcarried
  refine ⟨bs, e', w', r₁.finish, ?_, ?_, hcounts, hflat, hpipeline ▸ hcount, rfl, ?_⟩
  · have hend := hdrains (.failed hnext)
    rwa [List.append_nil] at hend
  · exact Stage.ofTransform_carryRow u.generator?_eq hscatters hcarried
  · intro hlength
    obtain ⟨hcarried', d, hd⟩ := Stage.carryRow_append u.generator?_eq hlength hscatters hps hfails
      (u.generator.row (first + 1) (u.size full - (first - full) - 1))
    rw [← hrow] at hcarried'
    have heq : e' = e := Except.error.inj (hcarried.symm.trans hcarried')
    exact ⟨d, heq.trans hd⟩

end Supply

end PointStream

import PointStream.Cursor
import PointStream.Proofs.Generator.Rows
import PointStream.Proofs.Lists

namespace PointStream

@[simp]
theorem Amount.add_natCast (n k : Nat) : (whole n).add (.whole k) = .ok (whole (n + k)) := by
  simp only [add, ← Int.natCast_add, Int.toNat_natCast]

namespace SourceCursor

variable {c : SourceCursor} {i : Nat}

theorem advance_natCast (hindex : c.index = .whole i) (n : Nat) :
    c.advance (.whole n) = .ok { c with index := .whole (i + n) } := by
  simp [advance, hindex]

theorem pull_eq (hindex : c.index = .whole i) (b : Buffer) :
    c.pull b =
      match c.generator.read b i with
      | .error e => (.error e, c, b)
      | .ok (n, filled) => (.ok (.whole n), { c with index := .whole (i + n) }, filled.holding n) := by
  simp only [pull, hindex, Amount.number, Generator.readAt]
  cases c.generator.read b i with
  | error e => rfl
  | ok result => simp only [Except.map, advance_natCast hindex, Amount.wholePart]

theorem exists_pull (hindex : c.index = .whole i) (htotal : c.generator.total < 2 ^ 64)
    (b : Buffer) :
    ∃ filled, c.pull b = (.ok (.whole (min b.capacity (c.generator.total - i))),
        { c with index := .whole (i + min b.capacity (c.generator.total - i)) }, filled) ∧
      filled.count = min b.capacity (c.generator.total - i) ∧
      Buffer.Overlays b filled
        (Buffer.written (c.generator.row i (min b.capacity (c.generator.total - i))) i) := by
  obtain ⟨filled, hread, hoverlays⟩ := c.generator.exists_read htotal b i
  have hle := Nat.min_le_left b.capacity (c.generator.total - i)
  generalize min b.capacity (c.generator.total - i) = n at *
  refine ⟨filled.holding n, ?_, ?_, hoverlays.holding _⟩
  · rw [pull_eq hindex, hread]
  · change min n filled.capacity = n
    rw [hoverlays.capacity]
    exact Nat.min_eq_left hle

theorem skip_negative {count : Int} (h : count < 0) :
    c.skip (.whole count) = (.error (.negativeSkip (.whole count)), c) := by
  simp [skip, h]

theorem skip_natCast (hindex : c.index = .whole i) (count : Nat) :
    c.skip (.whole count) = (.ok (.whole (min count (c.generator.total - i) : Nat)),
      { c with index := .whole (i + min count (c.generator.total - i)) }) := by
  have hskipped : (if (Number.whole (c.generator.total - i : Nat)).lt (.whole count) then
      Number.whole (c.generator.total - i : Nat) else .whole count) =
        .whole (min count (c.generator.total - i) : Nat) := by
    rw [Number.lt_whole]
    split
    · next h =>
      congr 2
      have := of_decide_eq_true h
      omega
    · next h =>
      congr 2
      have := of_decide_eq_false (Bool.eq_false_iff.mpr h)
      omega
  have hnonneg : ¬(Number.whole count).lt (.whole 0) = true := by simp
  simp only [skip, hnonneg, hindex, Amount.remaining, hskipped, advance_natCast hindex]
  rfl

theorem seek_negative {position : Int} (h : position < 0) :
    c.seek (.whole position) = (.error (.negativePosition (.whole position)), c) := by
  simp [seek, h]

theorem seek_natCast (position : Nat) :
    c.seek (.whole position) = (.ok position, { c with index := .whole position }) := by
  simp [seek, Number.toInt]

end SourceCursor

/-- A cursor of either kind over a source. -/
inductive Visitor where
  | sequential (c : Cursor)
  | random (c : SourceCursor)

namespace Visitor

def index : Visitor → Amount
  | sequential c => c.index
  | random c => c.index

def read (statuses : Statuses) : Visitor → Buffer → Except Failure Amount × Visitor × Buffer
  | sequential c, b =>
    let (result, c, b) := c.read statuses b
    (result, sequential c, b)
  | random c, b =>
    let (result, c, b) := c.pull b
    (result, random c, b)

/-- Passes over a number of points, which only a visitor in order can do. -/
def skip (count : Int) : Visitor → Visitor
  | sequential c => sequential (c.skip (.whole count)).2
  | random c => random c

/-- Goes to a position, which only a visitor in any order can do. -/
def seek (position : Int) : Visitor → Visitor
  | sequential c => sequential c
  | random c => random (c.seek (.whole position)).2

/-- What can be asked of the visitors of a source, who are numbered in the order of their
arrival. -/
inductive Request where
  | arrive (visit : Visit)
  | read (visitor : Nat) (b : Buffer)
  | skip (visitor : Nat) (count : Int)
  | seek (visitor : Nat) (position : Int)

def Request.serve (s : Stage) (statuses : Statuses) (visitors : List Visitor) :
    Request → List Visitor
  | arrive .sequential =>
    match s.cursor statuses with
    | .ok c => visitors ++ [sequential c]
    | .error _ => visitors
  | arrive .random =>
    match s.randomCursor statuses with
    | .ok c => visitors ++ [random c]
    | .error _ => visitors
  | read n b => visitors.modify n fun v => (v.read statuses b).2.1
  | skip n count => visitors.modify n (Visitor.skip count)
  | seek n position => visitors.modify n (Visitor.seek position)

/-- The visitors after a row of requests, of which none was there before. -/
def afterAll (s : Stage) (statuses : Statuses) (requests : List Request) : List Visitor :=
  requests.foldl (Request.serve s statuses) []

/-- Whether a visitor walks over the points of a generator and stands at an index. -/
def StandsAt (g : Generator) (i : Nat) : Visitor → Prop
  | sequential (.source c) => c.generator = g ∧ c.index = .whole i
  | sequential (.reprojected _ _ _) => False
  | random c => c.generator = g ∧ c.index = .whole i

variable {g : Generator} {v : Visitor} {i : Nat}

theorem StandsAt.index_eq (h : v.StandsAt g i) : v.index = .whole i := by
  match v, h with
  | .sequential (.source c), h => exact h.2
  | .random c, h => exact h.2

theorem StandsAt.exists_read (h : v.StandsAt g i) (htotal : g.total < 2 ^ 64)
    (statuses : Statuses) (b : Buffer) :
    ∃ v' filled, v.read statuses b =
        (.ok (.whole (min b.capacity (g.total - i))), v', filled) ∧
      v'.StandsAt g (i + min b.capacity (g.total - i)) ∧
      filled.count = min b.capacity (g.total - i) ∧
      Buffer.Overlays b filled
        (Buffer.written (g.row i (min b.capacity (g.total - i))) i) := by
  match v, h with
  | .sequential (.source c), ⟨hg, hindex⟩ =>
      subst hg
      obtain ⟨filled, hpull, hcount, hoverlays⟩ := SourceCursor.exists_pull hindex htotal b
      refine ⟨.sequential (.source { c with index := .whole _ }), filled, ?_, ⟨rfl, rfl⟩, hcount,
        hoverlays⟩
      simp only [read, Cursor.read, hpull]
  | .random c, ⟨hg, hindex⟩ =>
      subst hg
      obtain ⟨filled, hpull, hcount, hoverlays⟩ := SourceCursor.exists_pull hindex htotal b
      refine ⟨.random { c with index := .whole _ }, filled, ?_, ⟨rfl, rfl⟩, hcount, hoverlays⟩
      simp only [read, hpull]

theorem StandsAt.skip_sequential {c : Cursor} (h : (sequential c).StandsAt g i) (count : Nat) :
    ((sequential c).skip count).StandsAt g (i + min count (g.total - i)) := by
  match c, h with
  | .source c, ⟨hg, hindex⟩ =>
      subst hg
      simp only [skip, Cursor.skip, SourceCursor.skip_natCast hindex]
      exact ⟨rfl, rfl⟩

theorem StandsAt.seek_random {c : SourceCursor} (h : (random c).StandsAt g i) (position : Nat) :
    ((random c).seek position).StandsAt g position := by
  simp only [seek, SourceCursor.seek_natCast]
  exact ⟨h.1, rfl⟩

theorem StandsAt.exists_skip (h : v.StandsAt g i) (count : Int) :
    ∃ j, (v.skip count).StandsAt g j := by
  match v, h with
  | .sequential (.source c), h =>
      by_cases hcount : count < 0
      · refine ⟨i, ?_⟩
        simp only [skip, Cursor.skip, SourceCursor.skip_negative hcount]
        exact h
      · obtain ⟨n, rfl⟩ := Int.eq_ofNat_of_zero_le (Int.not_lt.mp hcount)
        exact ⟨_, h.skip_sequential n⟩
  | .random c, h => exact ⟨i, h⟩

theorem StandsAt.exists_seek (h : v.StandsAt g i) (position : Int) :
    ∃ j, (v.seek position).StandsAt g j := by
  match v, h with
  | .sequential c, h => exact ⟨i, h⟩
  | .random c, h =>
      by_cases hposition : position < 0
      · refine ⟨i, ?_⟩
        simp only [seek, SourceCursor.seek_negative hposition]
        exact h
      · obtain ⟨n, rfl⟩ := Int.eq_ofNat_of_zero_le (Int.not_lt.mp hposition)
        exact ⟨n, h.seek_random n⟩

section

variable {number : Nat} {options : Options} {statuses : Statuses} {g : Generator}

theorem cursor_source (hinitialized : (statuses.get number).initialized = true) :
    (Stage.source number options (.generated g)).cursor statuses =
      .ok (.source ⟨.source number options (.generated g), g, .whole 0⟩) := by
  simp [Stage.cursor, Stage.checkVisit, Stage.known, Stage.status, Stage.number, Stage.supports,
    hinitialized, bind, Except.bind, pure, Except.pure]

theorem randomCursor_source (hinitialized : (statuses.get number).initialized = true) :
    (Stage.source number options (.generated g)).randomCursor statuses =
      .ok ⟨.source number options (.generated g), g, .whole 0⟩ := by
  simp [Stage.randomCursor, Stage.checkVisit, Stage.known, Stage.status, Stage.number,
    Stage.supports, hinitialized, bind, Except.bind, pure, Except.pure]

theorem standsAt_of_mem_serve (htotal : g.total < 2 ^ 64)
    (hinitialized : (statuses.get number).initialized = true) {visitors : List Visitor}
    (hvisitors : ∀ v ∈ visitors, ∃ i, v.StandsAt g i) (request : Request) :
    ∀ v ∈ request.serve (.source number options (.generated g)) statuses visitors,
      ∃ i, v.StandsAt g i := by
  intro v hv
  cases request with
  | arrive visit =>
      cases visit with
      | sequential =>
          simp only [Request.serve, cursor_source hinitialized, List.mem_append,
            List.mem_singleton] at hv
          rcases hv with hv | rfl
          · exact hvisitors v hv
          · exact ⟨0, rfl, rfl⟩
      | random =>
          simp only [Request.serve, randomCursor_source hinitialized, List.mem_append,
            List.mem_singleton] at hv
          rcases hv with hv | rfl
          · exact hvisitors v hv
          · exact ⟨0, rfl, rfl⟩
  | read n b =>
      rcases mem_of_mem_modify hv with hv | ⟨u, hu, rfl⟩
      · exact hvisitors v hv
      · obtain ⟨i, hi⟩ := hvisitors u hu
        obtain ⟨v', filled, hread, hv', _, _⟩ := hi.exists_read htotal statuses b
        rw [hread]
        exact ⟨_, hv'⟩
  | skip n count =>
      rcases mem_of_mem_modify hv with hv | ⟨u, hu, rfl⟩
      · exact hvisitors v hv
      · obtain ⟨i, hi⟩ := hvisitors u hu
        exact hi.exists_skip count
  | seek n position =>
      rcases mem_of_mem_modify hv with hv | ⟨u, hu, rfl⟩
      · exact hvisitors v hv
      · obtain ⟨i, hi⟩ := hvisitors u hu
        exact hi.exists_seek position

theorem standsAt_of_mem_afterAll (htotal : g.total < 2 ^ 64)
    (hinitialized : (statuses.get number).initialized = true) (requests : List Request) :
    ∀ v ∈ afterAll (.source number options (.generated g)) statuses requests,
      ∃ i, v.StandsAt g i := by
  unfold afterAll
  apply List.foldlRecOn requests (Request.serve (.source number options (.generated g)) statuses)
    (motive := fun visitors => ∀ v ∈ visitors, ∃ i, v.StandsAt g i)
  · intro v hv
    cases hv
  · intro visitors hvisitors request _
    exact standsAt_of_mem_serve htotal hinitialized hvisitors request

/-- Whatever visitors arrive at a source and whatever they are asked to do, a read of one that
stands at an index gives the points of the indices from there on, as many as fit the buffer and are
left. Which point an index has is settled by the generator; a random point comes from the block of
its index. -/
theorem read_of_mem_afterAll (htotal : g.total < 2 ^ 64)
    (hinitialized : (statuses.get number).initialized = true) :
    (g.mode = .random → ∀ i, g.pointAt i =
        g.bounds.interpolate (Generator.drawOfBlock (Philox.block g.key (i + 1)))) ∧
      ∀ requests,
        (∀ visit, ∃ v, v.index = .whole 0 ∧
          afterAll (.source number options (.generated g)) statuses
              (requests ++ [.arrive visit]) =
            afterAll (.source number options (.generated g)) statuses requests ++ [v]) ∧
        ∀ v ∈ afterAll (.source number options (.generated g)) statuses requests,
          ∃ s : Nat, v.index = .whole s ∧
            (∀ c, v = .sequential c → ∀ m : Nat,
              (v.skip m).index = .whole (s + min m (g.total - s))) ∧
            (∀ c, v = .random c → ∀ p : Nat, (v.seek p).index = .whole p) ∧
            ∀ b : Buffer, ∃ v' filled,
              v.read statuses b = (.ok (.whole (min b.capacity (g.total - s))), v', filled) ∧
                v'.index = .whole (s + min b.capacity (g.total - s)) ∧
                filled.schema = b.schema ∧
                filled.count = min b.capacity (g.total - s) ∧
                ∀ r < min b.capacity (g.total - s),
                  filled.RowIs r (g.pointAt (s + r)) (s + r) := by
  constructor
  · intro hmode i
    simp only [Generator.pointAt, Generator.place, hmode]
  intro requests
  constructor
  · intro visit
    simp only [afterAll, List.foldl_append, List.foldl_cons, List.foldl_nil]
    cases visit with
    | sequential =>
        refine ⟨.sequential (.source ⟨.source number options (.generated g), g, .whole 0⟩), rfl, ?_⟩
        simp only [Request.serve, cursor_source hinitialized]
    | random =>
        refine ⟨.random ⟨.source number options (.generated g), g, .whole 0⟩, rfl, ?_⟩
        simp only [Request.serve, randomCursor_source hinitialized]
  intro v hv
  obtain ⟨s, hstands⟩ := standsAt_of_mem_afterAll htotal hinitialized requests v hv
  refine ⟨s, hstands.index_eq, ?_, ?_, ?_⟩
  · rintro c rfl m
    exact (hstands.skip_sequential m).index_eq
  · rintro c rfl p
    exact (hstands.seek_random p).index_eq
  · intro b
    obtain ⟨v', filled, hread, hv', hcount, hoverlays⟩ := hstands.exists_read htotal statuses b
    refine ⟨v', filled, hread, hv'.index_eq, hoverlays.schema, hcount, ?_⟩
    intro r hr
    have hrow : r < (g.row s (min b.capacity (g.total - s))).length := by
      rw [Generator.length_row]
      exact hr
    have hpoint : (g.row s (min b.capacity (g.total - s)))[r] = g.pointAt (s + r) := by
      simp [Generator.row]
    rw [← hpoint]
    exact hoverlays.rowIs_written hrow (by omega)

theorem read_of_last_index :
    let g : Generator := ⟨⟨Triple.all 0, Triple.all 10⟩, 3, .random, Schema.standard, 7⟩
    let statuses := Statuses.none.set 0 { Status.unknown with initialized := true }
    ∃ v ∈ afterAll (.source 0 [] (.generated g)) statuses [.arrive .random, .seek 0 2],
      ∃ v' filled, v.read statuses (Buffer.blank ⟨Schema.standard, .stage 0⟩ 5) =
          (.ok (.whole 1), v', filled) ∧
        filled.RowIs 0 (g.pointAt 2) 2 := by
  intro g statuses
  have hinitialized : (statuses.get 0).initialized = true := by decide
  obtain ⟨_, hvisitors⟩ := @read_of_mem_afterAll 0 [] statuses g (by decide) hinitialized
  have hmem : .random ⟨.source 0 [] (.generated g), g, .whole 2⟩ ∈
      afterAll (.source 0 [] (.generated g)) statuses [.arrive .random, .seek 0 2] :=
    List.mem_singleton.mpr rfl
  obtain ⟨s, hs, _, _, hread⟩ := (hvisitors _).2 _ hmem
  cases hs
  obtain ⟨v', filled, hread, _, _, _, hrows⟩ := hread (Buffer.blank ⟨Schema.standard, .stage 0⟩ 5)
  exact ⟨_, hmem, v', filled, hread, hrows 0 (by decide)⟩

end

end Visitor

end PointStream

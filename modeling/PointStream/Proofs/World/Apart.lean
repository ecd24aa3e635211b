import PointStream.Session
import PointStream.Proofs.Pipeline.Delivery

/-!
# Drawers apart

Cursors and runs draw points from stages that they share, each into buffers of its own. As long as
the stages are initialized they only look at what is known about the stages, and nobody changes it.
So each of them gets, and leaves in its buffers, what it would get alone, however the others come in
between.
-/

namespace PointStream

theorem Pipeline.prepare_congr (p : Pipeline) (backend : Backend) {w w' : World}
    (h : w.statuses = w'.statuses) :
    (p.prepare backend w).1 = (p.prepare backend w').1 ∧
      (p.prepare backend w).2.statuses = (p.prepare backend w').2.statuses := by
  constructor
  · unfold prepare World.changing
    rw [h]
    split
    · split
      · rfl
      · split <;> rfl
    · rfl
  · rw [p.prepare_snd, p.prepare_snd]
    dsimp only
    rw [h]

theorem Pipeline.pending?_of_initialized {p : Pipeline} {statuses : Statuses}
    (h : ∀ s ∈ p.stages, (s.status statuses).initialized = true) : p.pending? statuses = none := by
  rw [Option.eq_none_iff_forall_ne_some]
  intro s hs
  have hready := h s (mem_of_pending? hs)
  unfold pending? at hs
  split at hs
  · simpa [hready] using (Option.filter_eq_some_iff.mp hs).2
  · cases hs

namespace Run

variable {r : Run} {backend : Backend} {w w' : World}

/-- What a run gives and what becomes of it depends on the stages only, and not on what other runs
have counted. -/
def Agrees (x y : Except Failure (Option Buffer) × World × Run) : Prop :=
  x.1 = y.1 ∧ x.2.2 = y.2.2 ∧ x.2.1.statuses = y.2.1.statuses

theorem draw_congr (r : Run) (chunk : Number) (cursor : Cursor) (layout : Layout)
    (h : w.statuses = w'.statuses) :
    Agrees (r.draw w chunk cursor layout) (r.draw w' chunk cursor layout) := by
  unfold draw
  rw [h]
  split
  · exact ⟨rfl, rfl, h⟩
  · split
    · exact ⟨rfl, rfl, h⟩
    · dsimp only
      split
      · exact ⟨rfl, rfl, h⟩
      · exact ⟨rfl, rfl, h⟩

theorem enter_congr (r : Run) (backend : Backend) (h : w.statuses = w'.statuses) :
    Agrees (r.enter backend w) (r.enter backend w') := by
  obtain ⟨hresult, hstatuses⟩ := r.pipeline.prepare_congr backend h
  unfold enter
  split
  · exact ⟨rfl, rfl, h⟩
  · generalize r.pipeline.prepare backend w = prepared at hresult hstatuses ⊢
    generalize r.pipeline.prepare backend w' = prepared' at hresult hstatuses ⊢
    obtain ⟨result, ready⟩ := prepared
    obtain ⟨result', ready'⟩ := prepared'
    obtain rfl : result = result' := hresult
    have hcounted : (ready.setCount r.pipeline.number 0).statuses =
        (ready'.setCount r.pipeline.number 0).statuses := hstatuses
    cases result with
    | error e => exact ⟨rfl, rfl, hstatuses⟩
    | ok _ =>
        have houtset : outset r.pipeline (ready.setCount r.pipeline.number 0) =
            outset r.pipeline (ready'.setCount r.pipeline.number 0) := by
          unfold outset
          rw [hcounted]
        dsimp only
        rw [houtset]
        split
        · exact ⟨rfl, rfl, hcounted⟩
        · exact r.draw_congr _ _ _ hcounted

theorem next_congr (r : Run) (backend : Backend) (h : w.statuses = w'.statuses) :
    Agrees (r.next backend w) (r.next backend w') := by
  unfold next
  split
  · exact r.enter_congr backend h
  · exact ⟨rfl, rfl, h⟩
  · split
    · exact ⟨rfl, rfl, h⟩
    · split
      · exact ⟨rfl, rfl, h⟩
      · exact r.draw_congr _ _ _ h

theorem statuses_next (h : ∀ s ∈ r.pipeline.stages, (s.status w.statuses).initialized = true) :
    (r.next backend w).2.1.statuses = w.statuses := by
  obtain ⟨_, _, hstatuses, _⟩ := r.next_keeps backend w
  have hpending : r.pending? w.statuses = none := by
    unfold pending?
    split
    · exact Pipeline.pending?_of_initialized h
    · rfl
  rw [hstatuses, hpending]
  rfl

end Run

namespace Session

/-- What can be asked of a cursor or a run, which is told by the number of the object, as the buffer
to read into is. -/
inductive Demand where
  | read (drawer buffer : Nat)
  | skip (drawer : Nat) (count : Value)
  | seek (drawer : Nat) (position : Value)
  | next (drawer : Nat)

/-- What is answered: the result, and the drawer and its buffer after that. -/
inductive Reply where
  | read (result : Except Failure Amount) (drawer : Object) (buffer : Buffer)
  | skip (result : Except Failure Number) (drawer : Object)
  | seek (result : Except Failure Int) (drawer : Object)
  | next (result : Except Failure (Option Buffer)) (drawer : Object)
  /-- The object is not there, or cannot do it. -/
  | unable

namespace Demand

def drawer : Demand → Nat
  | read d _ | skip d _ | seek d _ | next d => d

/-- The numbers of the objects that a demand is about. -/
def numbers : Demand → List Nat
  | read d b => [d, b]
  | skip d _ | seek d _ | next d => [d]

end Demand

/-- The answer to a demand, with the world and the objects that it leaves behind. -/
def answer (backend : Backend) (s : Session) : Demand → Reply × World × List (Nat × Object)
  | .read d n =>
    match s.object? d, s.object? n with
    | some (.cursor c), some (.buffer b) =>
      let (result, c, b) := c.read s.world.statuses b
      (.read result (.cursor c) b, s.world, [(d, .cursor c), (n, .buffer b)])
    | some (.random c), some (.buffer b) =>
      let (result, c, b) := c.pull b
      (.read result (.random c) b, s.world, [(d, .random c), (n, .buffer b)])
    | _, _ => (.unable, s.world, [])
  | .skip d count =>
    match s.object? d with
    | some (.cursor c) =>
      let (result, c) := match count.number with
        | .error e => (.error e, c)
        | .ok k => c.skip k
      (.skip result (.cursor c), s.world, [(d, .cursor c)])
    | _ => (.unable, s.world, [])
  | .seek d position =>
    match s.object? d with
    | some (.random c) =>
      let (result, c) := match position.number with
        | .error e => (.error e, c)
        | .ok k => c.seek k
      (.seek result (.random c), s.world, [(d, .random c)])
    | _ => (.unable, s.world, [])
  | .next d =>
    match s.object? d with
    | some (.run r) =>
      let (result, world, r) := r.next backend s.world
      (.next result (.run r), world, [(d, .run r)])
    | _ => (.unable, s.world, [])

def putAll (s : Session) (left : List (Nat × Object)) : Session :=
  left.foldl (fun s o => s.put o.1 o.2) s

/-- Meets a demand, and keeps what it leaves behind. -/
def serve (backend : Backend) (s : Session) (q : Demand) : Reply × Session :=
  let (reply, world, left) := s.answer backend q
  (reply, { s with world }.putAll left)

/-- Meets demands one after the other. Each answer is noted with the drawer that gave it. -/
def serveAll (backend : Backend) (s : Session) : List Demand → List (Nat × Reply) × Session
  | [] => ([], s)
  | q :: qs =>
    let (reply, s) := s.serve backend q
    let (replies, s) := serveAll backend s qs
    ((q.drawer, reply) :: replies, s)

theorem serve_snd (backend : Backend) (s : Session) (q : Demand) :
    (s.serve backend q).2 =
      { s with world := (s.answer backend q).2.1 }.putAll (s.answer backend q).2.2 :=
  rfl

theorem serveAll_cons (backend : Backend) (s : Session) (q : Demand) (qs : List Demand) :
    s.serveAll backend (q :: qs) =
      ((q.drawer, (s.serve backend q).1) :: ((s.serve backend q).2.serveAll backend qs).1,
        ((s.serve backend q).2.serveAll backend qs).2) :=
  rfl

theorem world_putAll (s : Session) (left : List (Nat × Object)) :
    (s.putAll left).world = s.world := by
  induction left generalizing s with
  | nil => rfl
  | cons o left ih => exact ih (s.put o.1 o.2)

theorem object?_putAll_congr {s s' : Session} {left : List (Nat × Object)} {n : Nat}
    (h : n ∈ left.map Prod.fst ∨ s.object? n = s'.object? n) :
    (s.putAll left).object? n = (s'.putAll left).object? n := by
  induction left generalizing s s' with
  | nil => exact h.resolve_left List.not_mem_nil
  | cons o left ih =>
      apply ih
      rw [object?_put, object?_put]
      by_cases hn : n = o.1
      · exact .inr (by rw [if_pos hn, if_pos hn])
      · rw [if_neg hn, if_neg hn]
        rcases h with h | h
        · exact .inl ((List.mem_cons.mp h).resolve_left hn)
        · exact .inr h

theorem object?_putAll_of_not_mem {s : Session} {left : List (Nat × Object)} {n : Nat}
    (h : n ∉ left.map Prod.fst) : (s.putAll left).object? n = s.object? n := by
  induction left generalizing s with
  | nil => rfl
  | cons o left ih =>
      rw [List.map_cons, List.mem_cons, not_or] at h
      exact (ih h.2).trans ((object?_put ..).trans (if_neg h.1))

theorem object?_putAll_cases {s : Session} {left : List (Nat × Object)} {n : Nat} {o : Object}
    (h : (s.putAll left).object? n = some o) : (n, o) ∈ left ∨ s.object? n = some o := by
  induction left generalizing s with
  | nil => exact .inr h
  | cons first left ih =>
      rcases ih h with hmem | hput
      · exact .inl (List.mem_cons_of_mem _ hmem)
      · rw [object?_put] at hput
        split at hput
        · next hn =>
          obtain rfl := Option.some.inj hput
          exact .inl (hn ▸ List.mem_cons_self ..)
        · exact .inr hput

/-- Whether two sessions know the same about stages and have the same objects under some numbers. -/
structure Alike (mine : Nat → Prop) (s s' : Session) : Prop where
  statuses : s.world.statuses = s'.world.statuses
  objects : ∀ n, mine n → s.object? n = s'.object? n

theorem Alike.refl (mine : Nat → Prop) (s : Session) : Alike mine s s :=
  ⟨rfl, fun _ _ => rfl⟩

theorem Alike.trans {mine : Nat → Prop} {s s' s'' : Session} (h : Alike mine s s')
    (h' : Alike mine s' s'') : Alike mine s s'' :=
  ⟨h.statuses.trans h'.statuses, fun n hn => (h.objects n hn).trans (h'.objects n hn)⟩

/-- Whether the runs of some numbers are over initialized stages. -/
def Ready (asked : Nat → Prop) (s : Session) : Prop :=
  ∀ n r, asked n → s.object? n = some (.run r) →
    ∀ f ∈ r.pipeline.stages, (f.status s.world.statuses).initialized = true

variable {backend : Backend} {s s' : Session} {mine asked : Nat → Prop} {q : Demand}

theorem answer_cases (backend : Backend) (s : Session) (q : Demand) :
    (∃ reply left, s.answer backend q = (reply, s.world, left) ∧
      ∀ o ∈ left, o.1 ∈ q.numbers ∧ ∀ r, o.2 ≠ .run r) ∨
    ∃ r, s.object? q.drawer = some (.run r) ∧
      s.answer backend q =
        (.next (r.next backend s.world).1 (.run (r.next backend s.world).2.2),
          (r.next backend s.world).2.1, [(q.drawer, .run (r.next backend s.world).2.2)]) := by
  cases q with
  | read d n =>
      left
      unfold answer
      dsimp only
      split
      · exact ⟨_, _, rfl, by simp [Demand.numbers]⟩
      · exact ⟨_, _, rfl, by simp [Demand.numbers]⟩
      · exact ⟨_, _, rfl, nofun⟩
  | skip d count =>
      left
      unfold answer
      dsimp only
      split
      · exact ⟨_, _, rfl, by simp [Demand.numbers]⟩
      · exact ⟨_, _, rfl, nofun⟩
  | seek d position =>
      left
      unfold answer
      dsimp only
      split
      · exact ⟨_, _, rfl, by simp [Demand.numbers]⟩
      · exact ⟨_, _, rfl, nofun⟩
  | next d =>
      unfold answer
      dsimp only
      split
      · next r hr => exact .inr ⟨r, hr, rfl⟩
      · exact .inl ⟨_, _, rfl, nofun⟩

theorem mem_numbers_of_mem_answer {n : Nat} (h : n ∈ (s.answer backend q).2.2.map Prod.fst) :
    n ∈ q.numbers := by
  obtain ⟨o, ho, rfl⟩ := List.mem_map.mp h
  rcases s.answer_cases backend q with ⟨_, left, hanswer, hleft⟩ | ⟨r, _, hanswer⟩
  · rw [hanswer] at ho
    exact (hleft o ho).1
  · rw [hanswer] at ho
    rw [List.mem_singleton.mp ho]
    cases q <;> simp [Demand.numbers, Demand.drawer]

theorem statuses_answer (h : s.Ready asked) (hasked : asked q.drawer) :
    (s.answer backend q).2.1.statuses = s.world.statuses := by
  rcases s.answer_cases backend q with ⟨_, _, hanswer, _⟩ | ⟨r, hr, hanswer⟩
  · rw [hanswer]
  · rw [hanswer]
    exact Run.statuses_next (h _ r hasked hr)

theorem Alike.answer (h : Alike mine s s') (backend : Backend)
    (hmine : ∀ n ∈ q.numbers, mine n) :
    (s.answer backend q).1 = (s'.answer backend q).1 ∧
      (s.answer backend q).2.2 = (s'.answer backend q).2.2 ∧
      (s.answer backend q).2.1.statuses = (s'.answer backend q).2.1.statuses := by
  cases q with
  | read d n =>
      have hd := h.objects d (hmine d (by simp [Demand.numbers]))
      have hn := h.objects n (hmine n (by simp [Demand.numbers]))
      unfold Session.answer
      dsimp only
      rw [hd, hn, h.statuses]
      split
      · exact ⟨rfl, rfl, h.statuses⟩
      · exact ⟨rfl, rfl, h.statuses⟩
      · exact ⟨rfl, rfl, h.statuses⟩
  | skip d count =>
      have hd := h.objects d (hmine d (by simp [Demand.numbers]))
      unfold Session.answer
      dsimp only
      rw [hd]
      split
      · exact ⟨rfl, rfl, h.statuses⟩
      · exact ⟨rfl, rfl, h.statuses⟩
  | seek d position =>
      have hd := h.objects d (hmine d (by simp [Demand.numbers]))
      unfold Session.answer
      dsimp only
      rw [hd]
      split
      · exact ⟨rfl, rfl, h.statuses⟩
      · exact ⟨rfl, rfl, h.statuses⟩
  | next d =>
      have hd := h.objects d (hmine d (by simp [Demand.numbers]))
      unfold Session.answer
      dsimp only
      rw [hd]
      split
      · next r _ =>
        obtain ⟨hresult, hrun, hstatuses⟩ := r.next_congr backend h.statuses
        exact ⟨by rw [hresult, hrun], by rw [hrun], hstatuses⟩
      · exact ⟨rfl, rfl, h.statuses⟩

theorem Alike.serve (h : Alike mine s s') (backend : Backend)
    (hmine : ∀ n ∈ q.numbers, mine n) :
    (s.serve backend q).1 = (s'.serve backend q).1 ∧
      Alike mine (s.serve backend q).2 (s'.serve backend q).2 := by
  obtain ⟨hreply, hleft, hstatuses⟩ := h.answer backend hmine
  refine ⟨hreply, ?_, ?_⟩
  · rw [serve_snd, serve_snd, world_putAll, world_putAll]
    exact hstatuses
  · intro n hn
    rw [serve_snd, serve_snd, hleft]
    exact object?_putAll_congr (.inr (h.objects n hn))

theorem statuses_serve (h : s.Ready asked) (backend : Backend) (hasked : asked q.drawer) :
    (s.serve backend q).2.world.statuses = s.world.statuses := by
  rw [serve_snd, world_putAll]
  exact statuses_answer h hasked

theorem alike_serve (h : s.Ready asked) (backend : Backend) (hasked : asked q.drawer)
    (hothers : ∀ n ∈ q.numbers, ¬mine n) : Alike mine (s.serve backend q).2 s where
  statuses := statuses_serve h backend hasked
  objects := by
    intro n hn
    apply object?_putAll_of_not_mem
    intro hmem
    exact hothers n (mem_numbers_of_mem_answer hmem) hn

theorem Ready.serve (h : s.Ready asked) (backend : Backend) (hasked : asked q.drawer) :
    (s.serve backend q).2.Ready asked := by
  intro n r hn hr f hf
  rw [statuses_serve h backend hasked]
  rw [serve_snd] at hr
  rcases object?_putAll_cases hr with hmem | hkept
  · rcases s.answer_cases backend q with ⟨_, _, hanswer, hleft⟩ | ⟨r₀, hr₀, hanswer⟩
    · rw [hanswer] at hmem
      exact absurd rfl ((hleft _ hmem).2 r)
    · rw [hanswer] at hmem
      cases List.mem_singleton.mp hmem
      rw [(r₀.next_keeps backend s.world).1] at hf
      exact h _ r₀ hasked hr₀ f hf
  · exact h n r hn hkept f hf

/-- Whether demands of different drawers are about different objects. -/
def Apart (qs : List Demand) : Prop :=
  ∀ q ∈ qs, ∀ q' ∈ qs, q.drawer ≠ q'.drawer → ∀ n ∈ q.numbers, n ∉ q'.numbers

/-- Whether a number is that of a drawer, or of a buffer that it reads into. -/
def Owns (qs : List Demand) (d n : Nat) : Prop :=
  ∃ q ∈ qs, q.drawer = d ∧ n ∈ q.numbers

instance (qs : List Demand) : Decidable (Apart qs) :=
  inferInstanceAs (Decidable (∀ q ∈ qs, ∀ q' ∈ qs, q.drawer ≠ q'.drawer →
    ∀ n ∈ q.numbers, n ∉ q'.numbers))

theorem Apart.not_owns {qs : List Demand} (h : Apart qs) (hq : q ∈ qs) {d : Nat}
    (hd : q.drawer ≠ d) : ∀ n ∈ q.numbers, ¬Owns qs d n := by
  rintro n hn ⟨q', hq', rfl, hn'⟩
  exact h q hq q' hq' hd n hn hn'

/-- Among the demands of all drawers, one drawer gives the answers and keeps the objects that it
would if only its own demands were met. -/
theorem Alike.serveAll {all qs : List Demand} {d : Nat} (h : Alike (Owns all d) s s')
    (hready : s.Ready asked) (backend : Backend) (hapart : Apart all) (hqs : ∀ q ∈ qs, q ∈ all)
    (hasked : ∀ q ∈ qs, asked q.drawer) :
    ((s.serveAll backend qs).1.filter fun a => a.1 = d) =
        (s'.serveAll backend (qs.filter fun q => q.drawer = d)).1 ∧
      Alike (Owns all d) (s.serveAll backend qs).2
        (s'.serveAll backend (qs.filter fun q => q.drawer = d)).2 := by
  induction qs generalizing s s' with
  | nil => exact ⟨rfl, h⟩
  | cons q qs ih =>
      rw [List.forall_mem_cons] at hqs hasked
      have hready' := hready.serve backend hasked.1
      by_cases hd : q.drawer = d
      · have hmine : ∀ n ∈ q.numbers, Owns all d n := fun n hn => ⟨q, hqs.1, hd, hn⟩
        obtain ⟨hreply, halike⟩ := h.serve backend hmine
        obtain ⟨hreplies, hrest⟩ := ih halike hready' hqs.2 hasked.2
        rw [List.filter_cons_of_pos (by simpa using hd), serveAll_cons, serveAll_cons]
        refine ⟨?_, hrest⟩
        rw [List.filter_cons_of_pos (by simpa using hd), hreplies, hreply]
      · have halike := alike_serve hready backend hasked.1 (hapart.not_owns hqs.1 hd)
        obtain ⟨hreplies, hrest⟩ := ih (halike.trans h) hready' hqs.2 hasked.2
        rw [List.filter_cons_of_neg (by simpa using hd), serveAll_cons]
        refine ⟨?_, hrest⟩
        rw [List.filter_cons_of_neg (by simpa using hd), hreplies]

theorem statuses_serveAll {qs : List Demand} (hready : s.Ready asked) (backend : Backend)
    (hasked : ∀ q ∈ qs, asked q.drawer) :
    (s.serveAll backend qs).2.world.statuses = s.world.statuses := by
  induction qs generalizing s with
  | nil => rfl
  | cons q qs ih =>
      rw [List.forall_mem_cons] at hasked
      exact (ih (hready.serve backend hasked.1) hasked.2).trans
        (statuses_serve hready backend hasked.1)

/-- Drawers that read into buffers of their own do not notice each other. Whatever is asked of them
in whatever order, failures included, each of them answers as it would if only its own demands were
met, and it and its buffers are left as they would be then. What is known about stages stays as it
is. -/
theorem answers_apart (backend : Backend) (s : Session) {qs : List Demand} (hapart : Apart qs)
    (hready : ∀ q ∈ qs, ∀ r, s.object? q.drawer = some (.run r) →
      ∀ f ∈ r.pipeline.stages, (f.status s.world.statuses).initialized = true) :
    (∀ d, ((s.serveAll backend qs).1.filter fun a => a.1 = d) =
          (s.serveAll backend (qs.filter fun q => q.drawer = d)).1 ∧
        ∀ q ∈ qs, q.drawer = d → ∀ n ∈ q.numbers,
          (s.serveAll backend qs).2.object? n =
            (s.serveAll backend (qs.filter fun q => q.drawer = d)).2.object? n) ∧
      ∀ f : Stage, f.status (s.serveAll backend qs).2.world.statuses =
        f.status s.world.statuses := by
  have hasked : ∀ q ∈ qs, ∃ q' ∈ qs, q'.drawer = q.drawer := fun q hq => ⟨q, hq, rfl⟩
  have hruns : s.Ready fun n => ∃ q ∈ qs, q.drawer = n := by
    rintro n r ⟨q, hq, rfl⟩
    exact hready q hq r
  constructor
  · intro d
    obtain ⟨hreplies, halike⟩ := Alike.serveAll (.refl (Owns qs d) s) hruns backend hapart
      (fun _ hq => hq) hasked
    refine ⟨hreplies, ?_⟩
    intro q hq hd n hn
    exact halike.objects n ⟨q, hq, hd, hn⟩
  · intro f
    rw [statuses_serveAll hruns backend hasked]

/-- Three drawers over three points that are shifted: a cursor over the shifted points, one over the
points before that, and a run. -/
def threeDrawers : Session :=
  { Session.start 0 with
    world := World.ofRamp 2 "T:SHIFT"
    objects := [
      (0, .cursor (.reprojected (.rampTo 2 "T:SHIFT") (.whole 0)
        (.source ⟨.ramp 2, .ramp 2, .whole 0⟩))),
      (1, .cursor (.source ⟨.ramp 2, .ramp 2, .whole 0⟩)),
      (2, .run (.start (.ofRamp 2 "T:SHIFT") (.whole 1))),
      (3, .buffer (.blank ⟨Schema.standard, .stage 0⟩ 2)),
      (4, .buffer (.blank ⟨Schema.standard, .stage 0⟩ 1))] }

/-- Demands of three drawers in turn, of which some are refused. -/
def inTurn : List Demand :=
  [.read 0 3, .next 2, .skip 1 (.whole (-1)), .read 1 4, .seek 1 (.whole 0), .next 2, .read 0 3]

theorem answers_in_turn :
    Apart inTurn ∧
      ((threeDrawers.serveAll Local.backend inTurn).1.filter fun a => a.1 = 0) =
        (threeDrawers.serveAll Local.backend [.read 0 3, .read 0 3]).1 ∧
      ∀ n ∈ [0, 3], (threeDrawers.serveAll Local.backend inTurn).2.object? n =
        (threeDrawers.serveAll Local.backend [.read 0 3, .read 0 3]).2.object? n := by
  have hapart : Apart inTurn := by decide
  have hready : ∀ q ∈ inTurn, ∀ r, threeDrawers.object? q.drawer = some (.run r) →
      ∀ f ∈ r.pipeline.stages, (f.status threeDrawers.world.statuses).initialized = true := by
    have hinitialized : ∀ f ∈ (Pipeline.ofRamp 2 "T:SHIFT").stages,
        (f.status threeDrawers.world.statuses).initialized = true := by decide +kernel
    intro q hq r hr
    simp only [inTurn, List.mem_cons, List.not_mem_nil, or_false] at hq
    rcases hq with rfl | rfl | rfl | rfl | rfl | rfl | rfl <;> cases hr <;> exact hinitialized
  obtain ⟨hreplies, hobjects⟩ := (answers_apart Local.backend threeDrawers hapart hready).1 0
  refine ⟨hapart, hreplies, ?_⟩
  exact hobjects (.read 0 3) (List.mem_cons_self ..) rfl

end Session

end PointStream

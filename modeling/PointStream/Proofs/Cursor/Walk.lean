import PointStream.Proofs.Cursor.Position

namespace PointStream

/-- What can happen while a cursor walks over a chain. -/
inductive Move where
  | read (b : Buffer)
  | skip (count : Int)
  | close (s : Stage)

/-- A cursor, and the statuses of the stages that it walks over. -/
structure Walk where
  statuses : Statuses
  cursor : Cursor

namespace Walk

def move (w : Walk) : Move → Walk
  | .read b => { w with cursor := (w.cursor.read w.statuses b).2.1 }
  | .skip count => { w with cursor := (w.cursor.skip (.whole count)).2 }
  | .close s => { w with statuses := s.close w.statuses }

/-- Whether a move gives points. -/
def delivers (w : Walk) : Move → Bool
  | .read b => (w.cursor.read w.statuses b).1.isOk
  | _ => false

def passed (w : Walk) (m : Move) : List Nat :=
  List.range' w.cursor.index.wholePart
    ((w.move m).cursor.index.wholePart - w.cursor.index.wholePart)

/-- The walk after a row of moves. -/
def afterAll (w : Walk) (moves : List Move) : Walk :=
  moves.foldl move w

/-- The indices that a row of moves passes, each with whether its point was given. -/
def account (w : Walk) : List Move → List (Nat × Bool)
  | [] => []
  | m :: moves => (w.passed m).map (fun i => (i, w.delivers m)) ++ (w.move m).account moves

end Walk

/-- Whether the buffer of a move, if there is one, has the coordinates. -/
def Move.HasCoordinates : Move → Prop
  | read b => b.schema.HasCoordinates
  | _ => True

namespace Walk

variable {g : Generator} {i : Nat} {s : Stage} {w : Walk}

theorem exists_move (h : w.cursor.Over g i s) (htotal : g.total < 2 ^ 64) (hi : i ≤ g.total)
    {m : Move} (hm : m.HasCoordinates) :
    ∃ j, i ≤ j ∧ j ≤ g.total ∧ (w.move m).cursor.Over g j s := by
  cases m with
  | read b =>
      refine ⟨i + min b.capacity (g.total - i), by omega, by omega, ?_⟩
      cases hrow : s.carryRow w.statuses (g.row i (min b.capacity (g.total - i))) with
      | ok qs =>
          obtain ⟨c', filled, hread, hover, _, _⟩ := h.exists_read htotal (fun _ => hm) hrow
          simp only [move, hread]
          exact hover
      | error e =>
          obtain ⟨c', filled, hread, hover⟩ := h.exists_read_of_error htotal (fun _ => hm) hrow
          simp only [move, hread]
          exact hover
  | skip count =>
      by_cases hcount : count < 0
      · refine ⟨i, Nat.le_refl i, hi, ?_⟩
        simp only [move, h.skip_negative hcount]
        exact h
      · obtain ⟨n, rfl⟩ := Int.eq_ofNat_of_zero_le (Int.not_lt.mp hcount)
        obtain ⟨c', hskip, hover⟩ := h.exists_skip n
        refine ⟨i + min n (g.total - i), by omega, by omega, ?_⟩
        simp only [move, hskip]
        exact hover
  | close f => exact ⟨i, Nat.le_refl i, hi, h⟩

theorem exists_afterAll (htotal : g.total < 2 ^ 64) (moves : List Move)
    (hmoves : ∀ m ∈ moves, m.HasCoordinates) (h : w.cursor.Over g i s) (hi : i ≤ g.total) :
    ∃ j, i ≤ j ∧ j ≤ g.total ∧ (w.afterAll moves).cursor.Over g j s ∧
      (w.account moves).map Prod.fst = List.range' i (j - i) := by
  induction moves generalizing w i with
  | nil => exact ⟨i, Nat.le_refl i, hi, h, by simp [account]⟩
  | cons m moves ih =>
      obtain ⟨k, hik, hk, hover⟩ := exists_move h htotal hi (hmoves m (List.mem_cons_self ..))
      obtain ⟨j, hkj, hj, hafter, haccount⟩ :=
        ih (fun m' hm' => hmoves m' (List.mem_cons_of_mem _ hm')) hover hk
      refine ⟨j, Nat.le_trans hik hkj, hj, hafter, ?_⟩
      have hpassed : w.passed m = List.range' i (k - i) := by
        simp only [passed, h.index_eq, hover.index_eq, Amount.wholePart]
      have hjoin : List.range' i (k - i) ++ List.range' k (j - k) = List.range' i (j - i) := by
        have hsum : j - i = (k - i) + (j - k) := by omega
        rw [hsum, ← List.range'_append_1]
        congr 2
        omega
      simp only [account, List.map_append, List.map_map, Function.comp_def, List.map_id', hpassed,
        haccount, hjoin]

/-- Wherever a walk over an initialized chain has come to, its cursor and all cursors below stand at
one index, and every index before it was passed once. A read that gives points gives those of the
next indices as the chain carries them; a read that fails passes the same indices; a skip passes
what it says, as far as points are left. -/
theorem stands_after_moves {statuses : Statuses} (hs : s.generator? = some g)
    (htotal : g.total < 2 ^ 64)
    (hinitialized : ∀ f ∈ s.chain, (f.status statuses).initialized = true) :
    ∃ c, s.cursor statuses = .ok c ∧
      ∀ (moves : List Move) (w : Walk), (∀ m ∈ moves, m.HasCoordinates) →
        Walk.afterAll ⟨statuses, c⟩ moves = w →
        ∃ i ≤ g.total,
          (∀ a ∈ w.cursor.indices, a = .whole i) ∧
          (w.cursor.atEnd = true ↔ i = g.total) ∧
          (Walk.account ⟨statuses, c⟩ moves).map Prod.fst = List.range i ∧
          (∀ b, b.schema.HasCoordinates →
            ∃ result c' filled, w.cursor.read w.statuses b = (result, c', filled) ∧
              (∀ a ∈ c'.indices, a = .whole (i + min b.capacity (g.total - i))) ∧
              match result with
              | .ok n =>
                n = .whole (min b.capacity (g.total - i)) ∧
                filled.count = min b.capacity (g.total - i) ∧
                ∃ qs, s.carryRow w.statuses (g.row i (min b.capacity (g.total - i))) = .ok qs ∧
                  qs.length = min b.capacity (g.total - i) ∧
                  ∀ (r : Nat) (hr : r < qs.length), filled.RowIs r qs[r] (i + r)
              | .error e => e.ofTransform = true ∨ ∃ name, e = .noTransform name) ∧
          (∀ count : Nat, ∃ c',
            w.cursor.skip (.whole count) =
              (.ok (.whole (min count (g.total - i) : Nat)), c') ∧
            ∀ a ∈ c'.indices, a = .whole (i + min count (g.total - i))) ∧
          ∀ count : Int, count < 0 →
            w.cursor.skip (.whole count) = (.error (.negativeSkip (.whole count)), w.cursor) := by
  obtain ⟨c, hcursor, hover⟩ := Stage.exists_cursor hs hinitialized
  refine ⟨c, hcursor, ?_⟩
  intro moves w hmoves hw
  obtain ⟨i, _, hi, hafter, haccount⟩ :=
    exists_afterAll (w := ⟨statuses, c⟩) htotal moves hmoves hover (Nat.zero_le _)
  rw [hw] at hafter
  refine ⟨i, hi, fun a ha => hafter.eq_of_mem_indices ha, ?_, ?_, ?_, ?_, ?_⟩
  · rw [hafter.atEnd_eq, decide_eq_true_eq]
    exact ⟨fun h => Nat.le_antisymm hi h, fun h => Nat.le_of_eq h.symm⟩
  · rw [haccount, Nat.sub_zero, List.range_eq_range']
  · intro b hb
    cases hrow : s.carryRow w.statuses (g.row i (min b.capacity (g.total - i))) with
    | ok qs =>
        obtain ⟨c', filled, hread, hc', hcount, hoverlays⟩ :=
          hafter.exists_read htotal (fun _ => hb) hrow
        have hlength := (Stage.length_carryRow hs hrow).trans (Generator.length_row ..)
        refine ⟨_, c', filled, hread, fun a ha => hc'.eq_of_mem_indices ha, rfl, hcount, qs, rfl,
          hlength, ?_⟩
        intro r hr
        exact hoverlays.rowIs_written hr (by omega)
    | error e =>
        obtain ⟨c', filled, hread, hc'⟩ := hafter.exists_read_of_error htotal (fun _ => hb) hrow
        refine ⟨_, c', filled, hread, fun a ha => hc'.eq_of_mem_indices ha, ?_⟩
        rcases Stage.carryRow_eq_error hs hrow with he | ⟨f, _, _, _, he⟩
        · exact .inl he
        · exact .inr ⟨f.typeName, he⟩
  · intro count
    obtain ⟨c', hskip, hc'⟩ := hafter.exists_skip count
    exact ⟨c', hskip, fun a ha => hc'.eq_of_mem_indices ha⟩
  · intro count hcount
    exact hafter.skip_negative hcount

/-- After a read of two points, a close, and a read that fails for it, the third point is spent. -/
theorem stands_after_close :
    let s := Stage.rampTo 2 "T:SHIFT"
    let statuses := (s.prepare Local.backend Statuses.none).2
    let b := Buffer.blank ⟨Schema.standard, .stage 0⟩ 2
    ∃ c, s.cursor statuses = .ok c ∧
      ∃ w, Walk.afterAll ⟨statuses, c⟩ [.read b, .close s, .read b] = w ∧
        (∀ a ∈ w.cursor.indices, a = .whole 3) ∧ w.cursor.atEnd = true := by
  intro s statuses b
  have hinitialized : ∀ f ∈ s.chain, (f.status statuses).initialized = true := by decide
  obtain ⟨c, hcursor, hwalk⟩ := stands_after_moves rfl (by decide) hinitialized
  have hread : (Move.read b).HasCoordinates := by
    change Schema.HasCoordinates Schema.standard
    decide
  have hmoves : ∀ m ∈ [Move.read b, .close s, .read b], m.HasCoordinates :=
    List.forall_mem_cons.mpr ⟨hread, List.forall_mem_cons.mpr ⟨trivial,
      List.forall_mem_singleton.mpr hread⟩⟩
  obtain ⟨i, hi, hindices, hend, haccount, _⟩ := hwalk _ _ hmoves rfl
  refine ⟨c, hcursor, _, rfl, ?_⟩
  cases hcursor
  have hthree : List.range i = List.range 3 := by
    rw [← haccount]
    decide +kernel
  obtain rfl : i = 3 := by simpa using congrArg List.length hthree
  exact ⟨hindices, hend.mpr rfl⟩

end Walk

end PointStream

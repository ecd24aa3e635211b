import PointStream.Proofs.Buffer.Words
import PointStream.Proofs.Decimal.Range

/-!
# Rows of generated points

A read makes a row of consecutive points at once, with random words from one stream that starts at
the first of them. What it makes is nevertheless the points of the indices in the row, each a
function of its index alone, because a stream spends exactly one block on each point.
-/

namespace PointStream

namespace Generator

/-- The points with consecutive global indices. -/
def row (g : Generator) (start count : Nat) : List Point :=
  (List.range count).map fun r => g.pointAt (start + r)

@[simp]
theorem length_row (g : Generator) (start count : Nat) : (g.row start count).length = count := by
  simp [row]

theorem row_append (g : Generator) (start m n : Nat) :
    g.row start (m + n) = g.row start m ++ g.row (start + m) n := by
  simp [row, List.range_add, Function.comp_def, Nat.add_assoc]

theorem row_succ (g : Generator) (start n : Nat) :
    g.row start (n + 1) = g.pointAt start :: g.row (start + 1) n := by
  rw [Nat.add_comm n 1, row_append]
  rfl

theorem draws_succ (k : Philox.Key) (counter n : Nat) :
    draws (n + 1) (Philox.Stream.start k counter) =
      drawOfBlock (Philox.block k (counter + 1)) ::
        draws n (Philox.Stream.start k (counter + 1)) :=
  rfl

theorem draws_start (k : Philox.Key) (counter n : Nat) :
    draws n (Philox.Stream.start k counter) =
      (List.range n).map fun r => drawOfBlock (Philox.block k (counter + r + 1)) := by
  induction n generalizing counter with
  | zero => rfl
  | succ n ih =>
      rw [draws_succ, ih (counter + 1), List.range_succ_eq_map]
      simp only [List.map_cons, List.map_map, Nat.add_zero, List.cons.injEq, true_and]
      apply List.map_congr_left
      intro r _
      simp only [Function.comp_apply, Nat.succ_eq_add_one]
      congr 2
      omega

theorem toNat_index {start r : Nat} (h : start + r < 2 ^ 64) :
    (UInt64.ofNat (start + r)).toNat = start + r := by
  rw [UInt64.toNat_ofNat']
  exact Nat.mod_eq_of_lt h

/-- The points for a row of indices are the points of the single indices. -/
theorem points_eq_row (g : Generator) (htotal : g.total < 2 ^ 64) {start count : Nat}
    (hend : start + count ≤ 2 ^ 64) :
    g.points ((List.range count).map fun r => UInt64.ofNat (start + r)) =
      .ok (g.row start count) := by
  have hindex : ∀ r ∈ List.range count, (UInt64.ofNat (start + r)).toNat = start + r := by
    intro r hr
    have hlt := List.mem_range.mp hr
    exact toNat_index (by omega)
  unfold points row
  cases hmode : g.mode with
  | constant =>
      simp only [List.map_map, Except.ok.injEq]
      apply List.map_congr_left
      intro r _
      simp only [Function.comp_apply, pointAt, place, hmode]
  | ramp =>
      have hlast : (g.total - 1).log2 < 1023 := by
        by_cases hzero : g.total - 1 = 0
        · rw [hzero]
          decide
        · have hlog : (g.total - 1).log2 < 64 := (Nat.log2_lt hzero).mpr (by omega)
          omega
      simp only [Double.ofInt?_natCast hlast, List.map_map, Except.ok.injEq]
      apply List.map_congr_left
      intro r hr
      simp only [Function.comp_apply, hindex r hr, pointAt, place, hmode]
  | random =>
      -- The stream starts at the first index of the row; a row without points starts none.
      generalize hindices : (List.range count).map (fun r => UInt64.ofNat (start + r)) = indices
      have hlength : indices.length = count := by simp [← hindices]
      cases indices with
      | nil =>
          cases hlength
          rfl
      | cons first rest =>
          have hcount : 0 < count := by simp [← hlength]
          have hfirst : first.toNat = start := by
            have hhead := congrArg List.head? hindices
            simp only [List.head?_map, List.head?_range, List.head?_cons] at hhead
            rw [if_neg (Nat.ne_of_gt hcount)] at hhead
            simp only [Option.map_some, Option.some.injEq] at hhead
            rw [← hhead]
            exact toNat_index (by omega)
          simp only [hlength, hfirst, draws_start]
          rw [← hindices]
          simp only [List.zipWith_map, List.zipWith_self, Except.ok.injEq]
          apply List.map_congr_left
          intro r _
          simp only [pointAt, place, hmode]

theorem available_natCast (g : Generator) (capacity start : Nat) :
    g.available capacity start = min capacity (g.total - start) := by
  unfold available
  omega

theorem exists_read (g : Generator) (htotal : g.total < 2 ^ 64) (b : Buffer) (start : Nat) :
    ∃ filled, g.read b start = .ok (min b.capacity (g.total - start), filled) ∧
      Buffer.Overlays b filled
        (Buffer.written (g.row start (min b.capacity (g.total - start))) start) := by
  simp only [read, available_natCast]
  generalize hcount : min b.capacity (g.total - start) = count
  by_cases hzero : count = 0
  · refine ⟨b, by simp [hzero], rfl, rfl, ?_⟩
    intro d _ row
    simp [hzero, Buffer.written, Generator.row]
  · have hend : start + count ≤ 2 ^ 64 := by omega
    have hindices : indices start count =
        .ok ((List.range count).map fun r => UInt64.ofNat (start + r)) := by
      simp only [indices, Int.toNat_natCast]
      rw [if_neg (by omega)]
    simp only [hzero, if_false, hindices, write, points_eq_row g htotal hend]
    refine ⟨_, rfl, ?_⟩
    apply Buffer.overlays_putGenerated
    rw [length_row]

end Generator

end PointStream

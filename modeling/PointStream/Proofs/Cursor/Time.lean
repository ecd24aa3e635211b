import PointStream.Proofs.Cursor.Source
import PointStream.Proofs.Generator.Outcome

namespace PointStream

/-- Whether a read of a buffer has given some points, each at the time that is asked for, or has
failed and left the buffer as it was. -/
def Buffer.Timed (b : Buffer) (time : Nat → Int) : Except Failure Amount × Buffer → Prop
  | (.error _, b') => b' = b
  | (.ok n, b') =>
    ∃ m : Nat, n = .whole m ∧ ∀ row < m, ((b'.word .timeU64 row).toNat : Int) = time row

namespace Generator

/-- Whether the points of a generator can be made: a ramp needs its greatest index as a double. -/
def IsMeasured (g : Generator) : Prop :=
  g.mode = .ramp → (Double.ofInt? (g.total - 1 : Nat)).isOk = true

/-- Whether a read begins before the last word and goes on beyond it, with points that can be made. -/
def RunsOver (g : Generator) (capacity : Nat) (start : Int) : Prop :=
  0 ≤ start ∧ start + 1 < 2 ^ 64 ∧ 2 ^ 64 < start + g.available capacity start ∧ g.IsMeasured

variable {g : Generator} {b : Buffer} {start : Int} {out : Except Failure Amount × Buffer}

theorem length_draws (n : Nat) (s : Philox.Stream) : (draws n s).length = n := by
  induction n generalizing s with
  | zero => rfl
  | succ n ih => simp [draws, ih]

theorem points_cases (g : Generator) (indices : List UInt64) :
    (g.IsMeasured ∧ ∃ ps, g.points indices = .ok ps ∧ ps.length = indices.length) ∨
      (¬g.IsMeasured ∧ ∃ e, g.points indices = .error e) := by
  unfold points IsMeasured
  cases g.mode with
  | constant => exact .inl ⟨nofun, _, rfl, List.length_map ..⟩
  | ramp =>
      cases Double.ofInt? (g.total - 1 : Nat) with
      | error fault => exact .inr ⟨fun h => Bool.noConfusion (h rfl), _, rfl⟩
      | ok _ => exact .inl ⟨fun _ => rfl, _, rfl, List.length_map ..⟩
  | random =>
      refine .inl ⟨nofun, ?_⟩
      cases indices with
      | nil => exact ⟨[], rfl, rfl⟩
      | cons first rest => exact ⟨_, rfl, by simp [length_draws]⟩

theorem read_cases (htime : b.schema.has .timeU64 = true) (start : Int) :
    (g.available b.capacity start = 0 ∧ g.read b start = .ok (0, b)) ∨
      (¬g.RunsOver b.capacity start ∧ ∃ e, g.read b start = .error e) ∨
      (0 ≤ start ∧ 0 < g.available b.capacity start ∧
        (g.RunsOver b.capacity start ↔ 2 ^ 64 < start + g.available b.capacity start) ∧
        ∃ filled, g.read b start = .ok (g.available b.capacity start, filled) ∧
          ∀ row < g.available b.capacity start,
            filled.word .timeU64 row = UInt64.ofNat (start.toNat + row)) := by
  unfold read RunsOver indices
  generalize g.available b.capacity start = count
  dsimp only
  by_cases hzero : count = 0
  · rw [if_pos hzero]
    exact .inl ⟨hzero, rfl⟩
  rw [if_neg hzero]
  by_cases hrange : start < 0 ∨ 2 ^ 64 ≤ start ∨ (2 ≤ count ∧ 2 ^ 64 ≤ start + 1)
  · rw [if_pos hrange]
    exact .inr (.inl ⟨by omega, _, rfl⟩)
  rw [if_neg hrange]
  dsimp only [write]
  rcases g.points_cases ((List.range count).map fun r => UInt64.ofNat (start.toNat + r)) with
    ⟨hmeasured, ps, hps, hlength⟩ | ⟨hmeasured, e, hps⟩
  · rw [List.length_map, List.length_range] at hlength
    subst hlength
    have hoverlays : Buffer.Overlays b (b.putGenerated _ ps) (Buffer.written ps start.toNat) :=
      Buffer.overlays_putGenerated b rfl
    -- To run over with two points or more is to have started before the last word.
    have hruns : (0 ≤ start ∧ start + 1 < 2 ^ 64 ∧ 2 ^ 64 < start + ps.length ∧ g.IsMeasured) ↔
        2 ^ 64 < start + ps.length :=
      ⟨fun h => h.2.2.1, fun h => ⟨by omega, by omega, h, hmeasured⟩⟩
    rw [hps]
    refine .inr (.inr ⟨by omega, by omega, hruns, _, rfl, ?_⟩)
    intro row hrow
    rw [hoverlays.word .timeU64 htime row, Buffer.written, List.getElem?_eq_getElem hrow]
    rfl
  · rw [hps]
    exact .inr (.inl ⟨fun h => hmeasured h.2.2.2, _, rfl⟩)

/-- The times of a read are the indices modulo the number of words, so they are the indices unless the
read runs over the last word. -/
theorem timed_of_read (htime : b.schema.has .timeU64 = true)
    (hfails : ∀ e, g.read b start = .error e → out = (.error e, b))
    (hgives : ∀ m filled, g.read b start = .ok (m, filled) →
      ∃ b', out = (.ok (.whole m), b') ∧ ∀ row, b'.word .timeU64 row = filled.word .timeU64 row) :
    b.Timed (fun row => (start + row) % 2 ^ 64) out ∧
      (b.Timed (fun row => start + row) out ↔ ¬g.RunsOver b.capacity start) := by
  rcases read_cases htime start with ⟨hzero, hread⟩ | ⟨hruns, e, hread⟩ |
    ⟨hstart, hpos, hruns, filled, hread, hwords⟩
  · obtain ⟨b', rfl, _⟩ := hgives _ _ hread
    have hnot : ¬g.RunsOver b.capacity start := by
      unfold RunsOver
      omega
    have hempty (time : Nat → Int) : b.Timed time (.ok (.whole 0), b') := ⟨0, rfl, nofun⟩
    exact ⟨hempty _, fun _ => hnot, fun _ => hempty _⟩
  · rw [hfails e hread]
    exact ⟨rfl, fun _ => hruns, fun _ => rfl⟩
  · obtain ⟨b', rfl, hsame⟩ := hgives _ _ hread
    rw [hruns]
    generalize g.available b.capacity start = count at *
    have hword : ∀ row < count,
        ((b'.word .timeU64 row).toNat : Int) = (start + row) % 2 ^ 64 := by
      intro row hrow
      rw [hsame, hwords row hrow, UInt64.toNat_ofNat']
      omega
    refine ⟨⟨count, rfl, hword⟩, ?_, ?_⟩
    · rintro ⟨m, hm, htimes⟩ hover
      cases hm
      have hlast := htimes (count - 1) (by omega)
      rw [hword (count - 1) (by omega)] at hlast
      dsimp only at hlast
      omega
    · intro hwithin
      refine ⟨count, rfl, ?_⟩
      intro row hrow
      rw [hword row hrow]
      dsimp only
      omega

theorem timed_readInPlace (htime : b.schema.has .timeU64 = true) (number : Nat)
    (options : Options) (start : Int) :
    let out := (Stage.source number options (.generated g)).readInPlace b (.whole start)
    b.Timed (fun row => (start + row) % 2 ^ 64) out ∧
      (b.Timed (fun row => start + row) out ↔ ¬g.RunsOver b.capacity start) := by
  intro out
  apply timed_of_read htime
  · intro e hread
    simp only [out, Stage.readInPlace, Stage.readPoints_whole, hread]
    rfl
  · intro m filled hread
    refine ⟨filled, ?_, fun _ => rfl⟩
    simp only [out, Stage.readInPlace, Stage.readPoints_whole, hread]
    rfl

theorem timed_pull (htime : b.schema.has .timeU64 = true) {c : SourceCursor} {position : Nat}
    (hindex : c.index = .whole position) :
    let out := ((c.pull b).1, (c.pull b).2.2)
    b.Timed (fun row => (position + row) % 2 ^ 64) out ∧
      (b.Timed (fun row => position + row) out ↔ ¬c.generator.RunsOver b.capacity position) ∧
      ∀ e, (c.pull b).1 = .error e → (c.pull b).2 = (c, b) := by
  intro out
  have hpull := SourceCursor.pull_eq hindex b
  have htimed : b.Timed (fun row => ((position : Int) + row) % 2 ^ 64) out ∧
      (b.Timed (fun row => position + row) out ↔ ¬c.generator.RunsOver b.capacity position) := by
    apply timed_of_read htime
    · intro e hread
      simp only [out, hpull, hread]
    · intro m filled hread
      exact ⟨filled.holding m, by simp only [out, hpull, hread], fun _ => rfl⟩
  refine ⟨htimed.1, htimed.2, ?_⟩
  intro e herror
  rw [hpull] at herror ⊢
  cases hread : c.generator.read b position with
  | error e => rfl
  | ok _ => simp only [hread, reduceCtorEq] at herror

/-- A read from any start, and one of a cursor that went to any position, gives points at their
indices modulo the number of words, or it fails and leaves the buffer and the cursor as they were. The
times are the indices if and only if the read does not run over the last word. -/
theorem timed_reads (b : Buffer) (htime : b.schema.has .timeU64 = true) :
    (∀ g number options (start : Int),
      let out := (Stage.source number options (.generated g)).readInPlace b (.whole start)
      b.Timed (fun row => (start + row) % 2 ^ 64) out ∧
        (b.Timed (fun row => start + row) out ↔ ¬g.RunsOver b.capacity start)) ∧
    ∀ (c : SourceCursor) (position : Nat),
      let sought := (c.seek (.whole position)).2
      let out := ((sought.pull b).1, (sought.pull b).2.2)
      b.Timed (fun row => (position + row) % 2 ^ 64) out ∧
        (b.Timed (fun row => position + row) out ↔
          ¬c.generator.RunsOver b.capacity position) ∧
        ∀ e, (sought.pull b).1 = .error e → (sought.pull b).2 = (sought, b) := by
  constructor
  · intro g
    exact timed_readInPlace htime
  · intro c position
    rw [SourceCursor.seek_natCast]
    exact timed_pull htime rfl

/-- Of `2 ^ 64 + 1` points the last one has an index that is no word. -/
def beyond : Generator :=
  ⟨⟨.all 0, .all 1⟩, 2 ^ 64 + 1, .constant, .standard, 0⟩

theorem runsOver_beyond : beyond.RunsOver 3 (2 ^ 64 - 2) := by
  refine ⟨by decide, by decide, by decide, ?_⟩
  intro h
  cases h

/-- With three rows a read of the last two words runs over them. A cursor that goes to the point
behind them fails to read it and stays there. -/
theorem timed_reads_beyond :
    let b := Buffer.blank ⟨.standard, .stage 0⟩ 3
    let s := Stage.source 0 [] (.generated beyond)
    let out := s.readInPlace b (.whole (2 ^ 64 - 2))
    let sought := ((⟨s, beyond, .whole 0⟩ : SourceCursor).seek (.whole (2 ^ 64 : Nat))).2
    b.schema.has .timeU64 = true ∧ b.Timed (fun row => (2 ^ 64 - 2 + row) % 2 ^ 64) out ∧
      ¬b.Timed (fun row => 2 ^ 64 - 2 + row) out ∧
      sought.pull b = (.error (.number .outOfRange), sought, b) := by
  intro b s out sought
  have htime : b.schema.has .timeU64 = true := rfl
  obtain ⟨hread, hpull⟩ := timed_reads b htime
  have hsought : sought = ⟨s, beyond, .whole (2 ^ 64 : Nat)⟩ := rfl
  have hfails : beyond.read b (2 ^ 64 : Nat) = .error (.number .outOfRange) := rfl
  have herror : (sought.pull b).1 = .error (.number .outOfRange) := by
    rw [hsought, SourceCursor.pull_eq rfl, hfails]
  obtain ⟨_, _, hsame⟩ := hpull ⟨s, beyond, .whole 0⟩ (2 ^ 64)
  refine ⟨htime, (hread beyond 0 [] (2 ^ 64 - 2)).1, ?_, ?_⟩
  · intro h
    exact (hread beyond 0 [] (2 ^ 64 - 2)).2.mp h runsOver_beyond
  · exact Prod.ext herror (hsame _ herror)

/-- Not every read that gives points gives them at their indices. -/
theorem not_timed_beyond_last_word :
    ¬∀ (g : Generator) (b : Buffer), b.schema.has .timeU64 = true →
      ∀ (number : Nat) (options : Options) (start : Int), b.Timed (fun row => start + row)
        ((Stage.source number options (.generated g)).readInPlace b (.whole start)) := by
  intro htimed
  have hread := htimed beyond (Buffer.blank ⟨.standard, .stage 0⟩ 3) rfl 0 [] (2 ^ 64 - 2)
  exact (timed_readInPlace (g := beyond) rfl 0 [] (2 ^ 64 - 2)).2.mp hread runsOver_beyond

end Generator

end PointStream

import PointStream.Proofs.Buffer.Words
import PointStream.Stage.Prepare

namespace PointStream

theorem Stage.readPoints_whole (number : Nat) (options : Options) (g : Generator) (b : Buffer)
    (start : Int) :
    (source number options (.generated g)).readPoints b (.whole start) =
      (g.read b start).map fun read => (.whole read.1, read.2) :=
  rfl

namespace Generator

/-- What a read may come to: the buffer as it was or with points and indices written to it, or a
failure that is none of a transform. -/
def Outcome (b : Buffer) : Except Failure (Amount × Buffer) → Prop
  | .ok (_, filled) => filled = b ∨ ∃ indices ps, filled = b.putGenerated indices ps
  | .error e => e.ofTransform = false

variable {g : Generator} {e : Failure}

theorem points_eq_error {indices : List UInt64} (h : g.points indices = .error e) :
    ∃ fault, e = .number fault := by
  unfold points at h
  split at h
  · cases h
  · split at h
    · cases h
      exact ⟨_, rfl⟩
    · cases h
  · split at h <;> cases h

theorem outcome_read (g : Generator) (b : Buffer) (start : Int) :
    Outcome b ((g.read b start).map fun (count, filled) => (.whole count, filled)) := by
  unfold read
  dsimp only
  split
  · exact .inl rfl
  · split
    · next hindices =>
      unfold indices at hindices
      split at hindices
      · cases hindices
        rfl
      · cases hindices
    · next indices _ =>
      unfold write
      split
      · next hpoints =>
        obtain ⟨fault, rfl⟩ := points_eq_error hpoints
        rfl
      · exact .inr ⟨indices, _, rfl⟩

theorem Outcome.bind_number {α : Type} {b : Buffer} {x : Except NumberFault α}
    {f : α → Except Failure (Amount × Buffer)} (h : ∀ a, Outcome b (f a)) :
    Outcome b (x.mapError Failure.number >>= f) := by
  cases x with
  | error fault => rfl
  | ok a => exact h a

theorem outcome_readFrom (g : Generator) (b : Buffer) (start : Double) :
    Outcome b (g.readFrom b start) := by
  unfold readFrom
  apply Outcome.bind_number
  intro total
  split
  · exact .inl rfl
  · apply Outcome.bind_number
    intro steps
    apply Outcome.bind_number
    intro indices
    cases hpoints : g.points indices with
    | error e =>
        obtain ⟨fault, rfl⟩ := points_eq_error hpoints
        rfl
    | ok points =>
        dsimp only [bind, Except.bind]
        -- What is left can fail only where the indices do not fit the buffer.
        split
        · exact .inl rfl
        · split
          · rfl
          · split
            · exact .inr ⟨_, _, rfl⟩
            · rfl

theorem outcome_readAt (g : Generator) (b : Buffer) (start : Number) :
    Outcome b (g.readAt b start) := by
  cases start with
  | whole n => exact g.outcome_read b n
  | truth t => exact g.outcome_read b _
  | real x => exact g.outcome_readFrom b x

theorem ofTransform_readAt {b : Buffer} {start : Number} (h : g.readAt b start = .error e) :
    e.ofTransform = false := by
  have houtcome := g.outcome_readAt b start
  rwa [h] at houtcome

theorem layout_readAt {b filled : Buffer} {start : Number} {n : Amount}
    (h : g.readAt b start = .ok (n, filled)) : filled.layout = b.layout := by
  have houtcome := g.outcome_readAt b start
  rw [h] at houtcome
  rcases houtcome with rfl | ⟨indices, ps, rfl⟩
  · rfl
  · simp [Buffer.putGenerated]

theorem count_read {b filled : Buffer} {start : Int} {n : Nat}
    (h : g.read b start = .ok (n, filled)) : filled.count = b.count := by
  have houtcome := g.outcome_read b start
  rw [h] at houtcome
  rcases houtcome with rfl | ⟨indices, ps, rfl⟩
  · rfl
  · simp [Buffer.putGenerated]

end Generator

end PointStream

import PointStream.Failure

namespace PointStream

variable {ε α β : Type}

theorem exists_of_isOk {x : Except ε α} (h : x.isOk = true) : ∃ a, x = .ok a := by
  cases x with
  | error e => cases h
  | ok a => exact ⟨a, rfl⟩

theorem exists_of_not_isOk {x : Except ε α} (h : x.isOk = false) : ∃ e, x = .error e := by
  cases x with
  | error e => exact ⟨e, rfl⟩
  | ok a => cases h

theorem exists_of_bind_eq_ok {x : Except ε α} {f : α → Except ε β} {b : β}
    (h : x >>= f = .ok b) : ∃ a, x = .ok a ∧ f a = .ok b := by
  cases x with
  | error e => cases h
  | ok a => exact ⟨a, rfl, h⟩

theorem ite_eq_ok_iff {c : Prop} [Decidable c] {a b : α} {e : Failure} :
    (if c then Except.ok a else .error e) = .ok b ↔ a = b ∧ c := by
  split
  · next hc => simp only [Except.ok.injEq, hc, and_true]
  · next hc => simp only [reduceCtorEq, hc, and_false]

end PointStream

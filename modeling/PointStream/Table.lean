namespace PointStream

/-- Entries by number, with one entry for all numbers beyond the stored ones. -/
structure Table (α : Type) where
  rest : α
  entries : Array α

namespace Table

variable {α : Type}

/-- The table whose entries are all the same. -/
def constant (a : α) : Table α :=
  ⟨a, #[]⟩

def get (t : Table α) (i : Nat) : α :=
  t.entries.getD i t.rest

/-- The table with enough entries stored to hold that of a number. -/
def reach (t : Table α) (i : Nat) : Table α :=
  if i < t.entries.size then t
  else { t with entries := t.entries ++ Array.replicate (i + 1 - t.entries.size) t.rest }

def modify (t : Table α) (i : Nat) (f : α → α) : Table α :=
  let long := t.reach i
  { long with entries := long.entries.modify i f }

def set (t : Table α) (i : Nat) (a : α) : Table α :=
  t.modify i fun _ => a

/-- Replaces the entries of the numbers below a bound. -/
def fill (t : Table α) (n : Nat) (f : Nat → α) : Table α :=
  { t with entries := Array.ofFn (fun i : Fin n => f i) ++ t.entries.extract n t.entries.size }

@[simp]
theorem get_constant (a : α) (i : Nat) : (constant a).get i = a := by
  simp [get, constant]

@[simp]
theorem get_reach (t : Table α) (i j : Nat) : (t.reach i).get j = t.get j := by
  unfold reach
  split
  · rfl
  · simp only [get, Array.getD_eq_getD_getElem?, Array.getElem?_append, Array.getElem?_replicate]
    split
    · rfl
    · next h => split <;> simp [Array.getElem?_eq_none (Nat.le_of_not_lt h)]

theorem lt_size_reach (t : Table α) (i : Nat) : i < (t.reach i).entries.size := by
  unfold reach
  split
  · assumption
  · simp only [Array.size_append, Array.size_replicate]
    omega

theorem get_modify (t : Table α) (i j : Nat) (f : α → α) :
    (t.modify i f).get j = if j = i then f (t.get i) else t.get j := by
  have hlt := lt_size_reach t i
  rw [← get_reach t i j, ← get_reach t i i]
  simp only [modify, get, Array.getD_eq_getD_getElem?, Array.getElem?_modify]
  by_cases h : j = i
  · subst h
    simp [Array.getElem?_eq_getElem hlt]
  · have hij : ¬i = j := fun e => h e.symm
    simp [h, hij]

theorem get_set (t : Table α) (i j : Nat) (a : α) :
    (t.set i a).get j = if j = i then a else t.get j := by
  simp [set, get_modify]

theorem get_fill (t : Table α) (n j : Nat) (f : Nat → α) :
    (t.fill n f).get j = if j < n then f j else t.get j := by
  simp only [fill, get, Array.getD_eq_getD_getElem?, Array.getElem?_append, Array.size_ofFn]
  split
  · next h => simp [h]
  · next h =>
    have hj : n + (j - n) = j := by omega
    simp only [Array.getElem?_extract, hj]
    split
    · rfl
    · next hlt => rw [Array.getElem?_eq_none (by omega)]

end Table

end PointStream

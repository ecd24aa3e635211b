import Mathlib.Data.List.Basic
import Mathlib.Data.List.Forall2
import Mathlib.Data.List.TakeWhile
import Mathlib.Data.Nat.Find

namespace PointStream

variable {α β γ : Type} {xs : List α} {ys : List β} {zs : List γ} {n : Nat}

section Parts

variable {p : α → Bool}

theorem dropWhile_eq_self (h : ∀ x ∈ xs, p x = false) : xs.dropWhile p = xs :=
  List.dropWhile_eq_self_iff.mpr fun _ => Bool.eq_false_iff.mp (h _ (List.getElem_mem _))

theorem mem_dropWhile {x : α} (hx : x ∈ xs) (hp : p x = false) : x ∈ xs.dropWhile p := by
  rw [← List.takeWhile_append_dropWhile (p := p) (l := xs)] at hx
  refine (List.mem_append.mp hx).resolve_left fun hmem => ?_
  rw [List.mem_takeWhile_imp hmem] at hp
  cases hp

theorem span_append (hxs : ∀ x ∈ xs, p x = true) (rest : List α)
    (hrest : ∀ x ∈ rest.head?, p x = false) :
    (xs ++ rest).takeWhile p = xs ∧ (xs ++ rest).dropWhile p = rest := by
  rw [List.takeWhile_append_of_pos hxs, List.dropWhile_append_of_pos hxs]
  rcases rest with _ | ⟨x, rest⟩
  · exact ⟨List.append_nil _, rfl⟩
  · rw [List.takeWhile_cons_of_neg (Bool.eq_false_iff.mp (hrest x rfl)),
      List.dropWhile_cons_of_neg (Bool.eq_false_iff.mp (hrest x rfl))]
    exact ⟨List.append_nil _, rfl⟩

theorem forall_mem_intercalate {P : α → Prop} {separator : List α} {parts : List (List α)}
    (hseparator : ∀ x ∈ separator, P x) (hparts : ∀ part ∈ parts, ∀ x ∈ part, P x) :
    ∀ x ∈ separator.intercalate parts, P x := by
  induction parts with
  | nil => nofun
  | cons part parts ih =>
      obtain ⟨hpart, hrest⟩ := List.forall_mem_cons.mp hparts
      cases parts with
      | nil => rwa [List.intercalate_singleton]
      | cons next parts =>
          rw [List.intercalate_cons_cons]
          simp only [List.forall_mem_append]
          exact ⟨⟨hpart, hseparator⟩, ih hrest⟩

end Parts

section Indices

theorem getElem?_concat_eq_some {x y : α} (h : (xs ++ [x])[n]? = some y) :
    xs[n]? = some y ∨ n = xs.length ∧ x = y := by
  rcases Nat.lt_or_ge n xs.length with hn | hn
  · exact .inl (List.getElem?_append_left hn ▸ h)
  · rw [List.getElem?_append_right hn, List.getElem?_singleton] at h
    split at h
    · exact .inr ⟨by omega, Option.some.inj h⟩
    · cases h

theorem mem_of_mem_modify {f : α → α} {x : α} (h : x ∈ xs.modify n f) :
    x ∈ xs ∨ ∃ y ∈ xs, x = f y := by
  obtain ⟨k, hk, hx⟩ := List.mem_iff_getElem.mp h
  rw [List.length_modify] at hk
  rw [List.getElem_modify] at hx
  split at hx
  · exact .inr ⟨xs[k], List.getElem_mem hk, hx.symm⟩
  · exact .inl (hx ▸ List.getElem_mem hk)

theorem filterMap_range_succ (f : Nat → Option α) (n : Nat) :
    (List.range (n + 1)).filterMap f =
      (f 0).toList ++ (List.range n).filterMap fun i => f (i + 1) := by
  rw [List.range_succ_eq_map, List.filterMap_cons, List.filterMap_map]
  cases f 0 with
  | none => rfl
  | some x => rfl

theorem exists_first {P : Nat → Prop} (h : ¬∀ j < n, P j) :
    ∃ first < n, ¬P first ∧ ∀ j < first, P j := by
  classical
  have hexists : ∃ j, j < n ∧ ¬P j := by
    obtain ⟨j, hj⟩ := not_forall.mp h
    exact ⟨j, Classical.not_imp.mp hj⟩
  obtain ⟨hlt, hnot⟩ := Nat.find_spec hexists
  refine ⟨Nat.find hexists, hlt, hnot, ?_⟩
  intro j hj
  by_contra hfails
  exact Nat.find_min hexists hj ⟨Nat.lt_trans hj hlt, hfails⟩

end Indices

section Images

theorem exists_flatMap_split {x : α} (h : xs[n]? = some x) (f : α → List β) :
    ∃ behind, xs.flatMap f = (xs.take n).flatMap f ++ (f x ++ behind) := by
  obtain ⟨hn, rfl⟩ := List.getElem?_eq_some_iff.mp h
  refine ⟨(xs.drop (n + 1)).flatMap f, ?_⟩
  rw [← List.flatMap_cons, ← List.drop_eq_getElem_cons hn, ← List.flatMap_append,
    List.take_append_drop]

theorem mapM_eq_filterMap (f : α → Option β) (xs : List α) :
    xs.mapM f = if ∀ x ∈ xs, (f x).isSome = true then some (xs.filterMap f) else none := by
  induction xs with
  | nil => rfl
  | cons x xs ih =>
      rw [List.mapM_cons, ih, List.filterMap_cons]
      cases hx : f x with
      | none => simp [hx]
      | some y =>
          simp only [List.forall_mem_cons, hx, Option.isSome_some, true_and]
          split <;> rfl

variable {R : α → β → Prop} {S : β → γ → Prop}

theorem exists_of_forall₂ (h : List.Forall₂ R xs ys) {x : α} (hx : x ∈ xs) : ∃ y, R x y := by
  obtain ⟨i, hi, rfl⟩ := List.mem_iff_getElem.mp hx
  exact ⟨_, h.get hi (h.length_eq ▸ hi)⟩

theorem exists_forall₂ (h : ∀ x ∈ xs, ∃ y, R x y) : ∃ ys, List.Forall₂ R xs ys := by
  induction xs with
  | nil => exact ⟨[], .nil⟩
  | cons x xs ih =>
      obtain ⟨⟨y, hy⟩, hxs⟩ := List.forall_mem_cons.mp h
      obtain ⟨ys, hys⟩ := ih hxs
      exact ⟨y :: ys, .cons hy hys⟩

theorem exists_between_forall₂ (h : List.Forall₂ (fun x z => ∃ y, R x y ∧ S y z) xs zs) :
    ∃ ys, List.Forall₂ R xs ys ∧ List.Forall₂ S ys zs := by
  induction h with
  | nil => exact ⟨[], .nil, .nil⟩
  | cons h _ ih =>
      obtain ⟨y, hR, hS⟩ := h
      obtain ⟨ys, hRs, hSs⟩ := ih
      exact ⟨y :: ys, .cons hR hRs, .cons hS hSs⟩

theorem forall₂_through (hR : List.Forall₂ R xs ys) (hS : List.Forall₂ S ys zs) :
    List.Forall₂ (fun x z => ∃ y, R x y ∧ S y z) xs zs := by
  induction hR generalizing zs with
  | nil =>
      cases hS
      exact .nil
  | cons hxy _ ih =>
      cases hS with
      | cons hyz hS => exact .cons ⟨_, hxy, hyz⟩ (ih hS)

end Images

end PointStream

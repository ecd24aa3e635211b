import Mathlib.Data.List.Nodup
import PointStream.Stage.Define

namespace PointStream.Options

variable {options : Options} {parameters : List String} {key : String} {v : Value}

theorem mem_of_get? (h : options.get? key = some v) : (key, v) ∈ options := by
  obtain ⟨option, hfound, rfl⟩ := Option.map_eq_some_iff.mp h
  have hkey : option.1 = key := by simpa using List.find?_some hfound
  rw [← hkey]
  exact List.mem_of_find?_eq_some hfound

theorem get?_append_of_not_mem {front : Options} (h : key ∉ front.map Prod.fst) :
    get? (front ++ options) key = options.get? key := by
  unfold get?
  rw [List.find?_append, List.find?_eq_none.mpr, Option.none_or]
  intro option hmem
  rw [beq_iff_eq]
  rintro rfl
  exact h (List.mem_map_of_mem hmem)

theorem get?_eq_none_iff : options.get? key = none ↔ key ∉ options.map Prod.fst := by
  unfold get?
  rw [Option.map_eq_none_iff, List.find?_eq_none]
  simp only [beq_iff_eq, List.mem_map, not_exists, not_and]

/-- The value of a parameter, where null counts as no value. -/
def given? (options : Options) (name : String) : Option Value :=
  match options.get? name with
  | some .null => none
  | other => other

theorem withParameters_eq (options : Options) (parameters : List String) :
    options.withParameters parameters =
      options.filter (fun option => !parameters.contains option.1) ++
        parameters.filterMap fun name => (options.given? name).map (name, ·) := by
  unfold withParameters given?
  congr 2
  funext name
  rcases options.get? name with _ | v
  · rfl
  · cases v <;> rfl

theorem get?_of_given? (h : options.given? key = some v) : options.get? key = some v := by
  unfold given? at h
  split at h
  · cases h
  · exact h

theorem get?_filterMap (options : Options) {parameters : List String} (h : key ∈ parameters) :
    get? (parameters.filterMap fun name => (options.given? name).map (name, ·)) key =
      options.given? key := by
  induction parameters with
  | nil => cases h
  | cons name parameters ih =>
      rw [List.filterMap_cons]
      by_cases hname : name = key
      · subst hname
        cases hgiven : options.given? name with
        | some v => simp [get?]
        | none =>
            by_cases hmem : name ∈ parameters
            · exact (ih hmem).trans hgiven
            · apply get?_eq_none_iff.mpr
              intro hkey
              obtain ⟨option, hoption, rfl⟩ := List.mem_map.mp hkey
              obtain ⟨other, hother, heq⟩ := List.mem_filterMap.mp hoption
              obtain ⟨w, _, rfl⟩ := Option.map_eq_some_iff.mp heq
              exact hmem hother
      · have hmem : key ∈ parameters := (List.mem_cons.mp h).resolve_left (Ne.symm hname)
        rcases options.given? name with _ | v
        · exact ih hmem
        · rw [← ih hmem]
          simp [get?, hname]

theorem not_mem_filter (h : key ∈ parameters) :
    key ∉ (options.filter fun option => !parameters.contains option.1).map Prod.fst := by
  intro hmem
  obtain ⟨option, hoption, rfl⟩ := List.mem_map.mp hmem
  have hnot := (List.mem_filter.mp hoption).2
  simp [h] at hnot

theorem given?_withParameters (h : key ∈ parameters) :
    (options.withParameters parameters).given? key = options.given? key := by
  have hget : (options.withParameters parameters).get? key = options.given? key := by
    rw [withParameters_eq, get?_append_of_not_mem (not_mem_filter h), get?_filterMap options h]
  conv_lhs => rw [given?, hget]
  split
  · next hnull =>
    unfold given? at hnull
    split at hnull
    · cases hnull
    · next hother => exact absurd hnull hother
  · rfl

theorem withParameters_idem (options : Options) (parameters : List String) :
    (options.withParameters parameters).withParameters parameters =
      options.withParameters parameters := by
  rw [withParameters_eq (options.withParameters parameters)]
  conv_rhs => rw [withParameters_eq]
  congr 1
  · have hnone : (parameters.filterMap fun name => (options.given? name).map (name, ·)).filter
        (fun option => !parameters.contains option.1) = [] := by
      rw [List.filter_eq_nil_iff]
      intro option hmem
      obtain ⟨name, hname, heq⟩ := List.mem_filterMap.mp hmem
      obtain ⟨v, _, rfl⟩ := Option.map_eq_some_iff.mp heq
      simp [hname]
    rw [withParameters_eq, List.filter_append, hnone, List.append_nil, List.filter_filter]
    simp
  · apply List.filterMap_congr
    intro name hname
    rw [given?_withParameters hname]

theorem mem_of_mem_withParameters {option : String × Value}
    (h : option ∈ options.withParameters parameters) : option ∈ options := by
  rw [withParameters_eq] at h
  rcases List.mem_append.mp h with hother | hparameter
  · exact List.mem_of_mem_filter hother
  · obtain ⟨name, _, heq⟩ := List.mem_filterMap.mp hparameter
    obtain ⟨v, hgiven, rfl⟩ := Option.map_eq_some_iff.mp heq
    exact mem_of_get? (get?_of_given? hgiven)

theorem get?_withParameters_eq_none (h : options.get? key = none) :
    (options.withParameters parameters).get? key = none := by
  rw [get?_eq_none_iff] at h ⊢
  intro hmem
  obtain ⟨option, hoption, rfl⟩ := List.mem_map.mp hmem
  exact h (List.mem_map_of_mem (mem_of_mem_withParameters hoption))

theorem nodup_withParameters (h : (options.map Prod.fst).Nodup) (hparameters : parameters.Nodup) :
    ((options.withParameters parameters).map Prod.fst).Nodup := by
  rw [withParameters_eq, List.map_append, List.nodup_append]
  refine ⟨h.sublist (List.filter_sublist.map _), ?_, ?_⟩
  · rw [List.map_filterMap]
    refine hparameters.filterMap ?_
    intro a b key ha hb
    simp only [Option.map_map, Option.mem_def, Option.map_eq_some_iff] at ha hb
    obtain ⟨_, _, rfl⟩ := ha
    obtain ⟨_, _, rfl⟩ := hb
    rfl
  · rintro key hfront _ hbehind rfl
    obtain ⟨option, hoption, rfl⟩ := List.mem_map.mp hbehind
    obtain ⟨name, hname, heq⟩ := List.mem_filterMap.mp hoption
    obtain ⟨v, _, rfl⟩ := Option.map_eq_some_iff.mp heq
    exact not_mem_filter hname hfront

end PointStream.Options

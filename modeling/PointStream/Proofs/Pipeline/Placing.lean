import PointStream.Proofs.Lists
import PointStream.Proofs.Pipeline.Saving

namespace PointStream

namespace Pipeline

/-- What is wrong with the stage at a position. -/
def problemAt? (stages : List Stage) : Nat → Option String
  | 0 => stages.head?.bind fun s =>
      if s.isFilter then some "Pipeline must start with a reader" else none
  | i + 1 =>
      match stages[i]?, stages[i + 1]? with
      | some before, some s => linkProblem? before s
      | _, _ => none

theorem linkProblems_eq (first : Stage) (rest : List Stage) :
    linkProblems (first :: rest) =
      (List.range rest.length).filterMap fun i => problemAt? (first :: rest) (i + 1) := by
  induction rest generalizing first with
  | nil => rfl
  | cons s rest ih =>
      rw [linkProblems, ih, List.length_cons, filterMap_range_succ]
      rfl

/-- The problems of a pipeline are those of its positions, in their order. -/
theorem problems_eq {p : Pipeline} (h : p.stages ≠ []) :
    p.problems = (List.range p.stages.length).filterMap (problemAt? p.stages) := by
  obtain ⟨first, rest, hstages⟩ := List.exists_cons_of_ne_nil h
  unfold problems
  rw [hstages, List.length_cons, filterMap_range_succ]
  dsimp only
  rw [linkProblems_eq, problemAt?, List.head?_cons, Option.bind_some]
  cases first.isFilter with
  | true => rfl
  | false => rfl

/-- Where a definition puts a stage: a ready-made one as it is, one that a record defines at the
head as a source, or else behind the stage before it. -/
def PlacedAt (stages : List Stage) : Nat → Definition → Prop
  | i, .stage s => stages[i]? = some s
  | 0, .value _ => ∃ s, stages[0]? = some s ∧ s.isFilter = false
  | i + 1, .value _ => ∃ before s, stages[i]? = some before ∧ stages[i + 1]? = some s ∧
      s.isFilter = true ∧ s.previous? = some before

theorem PlacedAt.problemAt?_eq_none {stages : List Stage} {i : Nat} {v : Value}
    (h : PlacedAt stages i (.value v)) : problemAt? stages i = none := by
  cases i with
  | zero =>
      obtain ⟨s, hs, hsource⟩ := h
      rw [← List.head?_eq_getElem?] at hs
      rw [problemAt?, hs, Option.bind_some, hsource]
      rfl
  | succ i =>
      obtain ⟨before, s, hbefore, hs, hfilter, hprevious⟩ := h
      rw [problemAt?, hbefore, hs]
      simp [linkProblem?, hfilter, hprevious]

theorem placedAt_of_defineStage {stages rest : List Stage} {record : Options} {w w' : World}
    {s : Stage} (h : defineStage stages record w = .ok (s, w')) :
    PlacedAt (stages ++ s :: rest) stages.length (.value (.record record)) := by
  obtain ⟨_, hdefines⟩ := defineStage_eq_ok h
  rcases List.eq_nil_or_concat' stages with rfl | ⟨front, before, rfl⟩
  · cases hdefines
    exact ⟨_, rfl, rfl⟩
  · rw [List.getLast?_concat] at hdefines
    rw [List.length_append, List.length_singleton, List.append_assoc]
    refine ⟨before, s, by simp, by simp, ?_⟩
    cases hdefines
    exact ⟨rfl, rfl⟩

theorem placedAt_of_defineStages {stages all : List Stage} {w w' : World}
    {definitions : List Definition} (h : defineStages stages w definitions = .ok (all, w')) :
    stages <+: all ∧ all.length = stages.length + definitions.length ∧
      ∀ i d, definitions[i]? = some d → PlacedAt all (stages.length + i) d := by
  induction definitions generalizing stages w with
  | nil =>
      cases h
      exact ⟨List.prefix_rfl, rfl, nofun⟩
  | cons d definitions ih =>
      -- One more stage is there for the definitions that follow.
      have hstep : ∀ s w₁, defineStages (stages ++ [s]) w₁ definitions = .ok (all, w') →
          (∀ rest, PlacedAt (stages ++ s :: rest) stages.length d) →
          stages <+: all ∧ all.length = stages.length + (definitions.length + 1) ∧
            ∀ i d', (d :: definitions)[i]? = some d' → PlacedAt all (stages.length + i) d' := by
        intro s w₁ hrest hplaced
        obtain ⟨⟨rest, rfl⟩, hlength, hothers⟩ := ih hrest
        rw [List.append_assoc, List.singleton_append] at *
        refine ⟨List.prefix_append .., ?_, ?_⟩
        · rw [hlength, List.length_append, List.length_singleton]
          omega
        · rintro (_ | i) d' hd'
          · cases hd'
            exact hplaced rest
          · have hother := hothers i d' hd'
            rwa [List.length_append, List.length_singleton, Nat.add_right_comm] at hother
      cases d with
      | stage s =>
          apply hstep s w h
          intro rest
          show (stages ++ s :: rest)[stages.length]? = some s
          simp
      | value v =>
          cases v with
          | record record =>
              rw [defineStages] at h
              split at h
              · cases h
              · next s w₁ hs => exact hstep s w₁ h fun rest => placedAt_of_defineStage hs
          | _ => cases h

variable {p : Pipeline}

theorem placedAt_of_ofDefinitions {definitions : List Definition} {w w' : World}
    (h : ofDefinitions definitions w = .ok (p, w')) :
    p.stages.length = definitions.length ∧
      ∀ i d, definitions[i]? = some d → PlacedAt p.stages i d := by
  unfold ofDefinitions at h
  split at h
  · cases h
  · next all w₁ hall =>
    cases h
    obtain ⟨_, hlength, hplaced⟩ := placedAt_of_defineStages hall
    rw [List.length_nil, Nat.zero_add] at hlength
    refine ⟨hlength, fun i d hd => ?_⟩
    have hi := hplaced i d hd
    rwa [List.length_nil, Nat.zero_add] at hi

theorem exists_stage_of_problemAt? {definitions : List Definition}
    (hlength : p.stages.length = definitions.length)
    (hplaced : ∀ i d, definitions[i]? = some d → PlacedAt p.stages i d) {i : Nat} {e : String}
    (h : problemAt? p.stages i = some e) : ∃ s, definitions[i]? = some (.stage s) := by
  have hi : i < definitions.length := by
    rw [← hlength]
    by_contra hi
    have hnone : p.stages[i]? = none := List.getElem?_eq_none (Nat.not_lt.mp hi)
    cases i with
    | zero =>
        rw [problemAt?, List.head?_eq_getElem?, hnone] at h
        cases h
    | succ i =>
        rw [problemAt?, hnone] at h
        split at h
        · next hsome => cases hsome
        · cases h
  cases hd : definitions[i] with
  | stage s => exact ⟨s, by rw [List.getElem?_eq_getElem hi, hd]⟩
  | value v =>
      have hnone := (hplaced i _ (hd ▸ List.getElem?_eq_getElem hi)).problemAt?_eq_none
      rw [h] at hnone
      cases hnone

theorem problems_eq_nil {definitions : List Definition} (hne : p.stages ≠ [])
    (hlength : p.stages.length = definitions.length)
    (hplaced : ∀ i d, definitions[i]? = some d → PlacedAt p.stages i d)
    (hvalues : ∀ d ∈ definitions, ∃ v, d = .value v) : p.problems = [] := by
  rw [problems_eq hne, List.filterMap_eq_nil_iff]
  intro i _
  by_contra hsome
  obtain ⟨e, he⟩ := Option.ne_none_iff_exists'.mp hsome
  obtain ⟨s, hs⟩ := exists_stage_of_problemAt? hlength hplaced he
  obtain ⟨v, hv⟩ := hvalues _ (List.mem_of_getElem? hs)
  cases hv

theorem values_of_definitionsOf {v : Value} {definitions : List Definition}
    (h : definitionsOf v = .ok definitions) : ∀ d ∈ definitions, ∃ v, d = .value v := by
  unfold definitionsOf at h
  dsimp only at h
  split at h
  · cases h
  · split at h
    · cases h
    · next items _ =>
      cases h
      intro d hd
      obtain ⟨item, _, rfl⟩ := List.mem_map.mp hd
      exact ⟨item, rfl⟩

end Pipeline

end PointStream

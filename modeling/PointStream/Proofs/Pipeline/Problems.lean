import PointStream.Proofs.Pipeline.Delivery
import PointStream.Proofs.Pipeline.Placing
import PointStream.Proofs.Pipeline.Records

namespace PointStream

namespace Pipeline

theorem Linked.eq_chain {stages : List Stage} {s : Stage} (h : Linked stages)
    (hlast : stages.getLast? = some s) : stages = s.chain := by
  induction stages using List.reverseRecOn generalizing s with
  | nil => cases hlast
  | append_singleton front s' ih =>
      obtain rfl : s' = s := by simpa using hlast
      obtain ⟨hhead, hchain⟩ := h
      obtain ⟨hfront, _, hnext⟩ := List.isChain_append.mp hchain
      rcases List.eq_nil_or_concat' front with rfl | ⟨front, before, rfl⟩
      · cases s' with
        | source n o kind => rfl
        | _ => cases hhead _ rfl
      · have hprevious : s'.previous? = some before := hnext before (by simp) s' rfl
        have hfront := ih ⟨fun f hf => hhead f (by simpa using hf), hfront⟩ List.getLast?_concat
        cases s' with
        | filter n o kind previous =>
            cases hprevious
            rw [hfront]
            rfl
        | _ => cases hprevious

variable {p : Pipeline} {backend : Backend} {σ : Setting} {w : World}

theorem problems_of_prepare (h : p.prepare backend σ.world = (.ok (), w)) : p.problems = [] := by
  unfold prepare at h
  split at h
  · next hnone => exact hnone
  · cases h

section

variable {stages : List Stage} (hfamily : Stage.Family stages)

include hfamily

theorem previous_of_linkProblem? {before s : Stage} (hbefore : before ∈ stages) (hs : s ∈ stages)
    (h : linkProblem? before s = none) : s.previous? = some before := by
  unfold linkProblem? at h
  split_ifs at h with hfilter hnumber
  obtain ⟨previous, hprevious, heq⟩ := Option.map_eq_some_iff.mp hnumber
  have hmem := hfamily.previous s hs previous hprevious
  rw [hprevious, hfamily.unique previous hmem before hbefore heq]

theorem isChain_of_linkProblems {members : List Stage} (hmem : ∀ s ∈ members, s ∈ stages)
    (h : linkProblems members = []) :
    members.IsChain fun before s => s.previous? = some before := by
  induction members with
  | nil => exact List.isChain_nil
  | cons before members ih =>
      cases members with
      | nil => exact List.isChain_singleton before
      | cons s members =>
          rw [linkProblems, List.append_eq_nil_iff, Option.toList_eq_nil_iff] at h
          rw [List.isChain_cons_cons]
          refine ⟨previous_of_linkProblem? hfamily (hmem _ (by simp)) (hmem _ (by simp)) h.1, ?_⟩
          exact ih (fun f hf => hmem f (List.mem_cons_of_mem _ hf)) h.2

theorem linked_of_problems (hmem : ∀ s ∈ p.stages, s ∈ stages) (h : p.problems = []) :
    Linked p.stages := by
  unfold problems at h
  split at h
  · cases h
  · next first rest hstages =>
    obtain ⟨hfirst, hlinks⟩ := List.append_eq_nil_iff.mp h
    refine ⟨?_, isChain_of_linkProblems hfamily hmem hlinks⟩
    rw [hstages, List.head?_cons]
    rintro s ⟨⟩
    cases hs : first.isFilter with
    | false => rfl
    | true => simp [hs] at hfirst

end

theorem initialized_of_prepare (hsound : σ.Sound backend) (hmem : ∀ s ∈ p.stages, s ∈ σ.stages)
    (h : p.prepare backend σ.world = (.ok (), w)) :
    (∀ s ∈ p.stages, (s.status w.statuses).initialized = true) ∧
      p.prepare backend w = (.ok (), w) := by
  have hproblems := problems_of_prepare h
  have hlinked := linked_of_problems hsound.family hmem hproblems
  have hw := hsound.preparePipeline hmem h
  have hne : p.stages ≠ [] := by
    intro hnil
    unfold problems at hproblems
    rw [hnil] at hproblems
    cases hproblems
  obtain ⟨s, hs⟩ := Option.isSome_iff_exists.mp (List.getLast?_isSome.mpr hne)
  have hlast : p.last = .ok s := by
    unfold last
    rw [hs]
  have hready := initialized_last_of_prepare hlast h
  constructor
  · rw [hlinked.eq_chain hs]
    exact hw.fits.inOrder.initialized_chain hw.family (hmem s (List.mem_of_getLast? hs)) hready
  · unfold prepare
    rw [hproblems]
    simp only [hlast, hready, if_true]

/-- Making a pipeline and finding its problems agree. A problem is found only where a ready-made
stage was given: what a record defines is a source at the head, and elsewhere a filter behind the
stage before it. So a pipeline of records has no problem, and records of registered types with
accepted options define one if and only if the first is that of a source and the others are those
of filters. A pipeline without problems that was prepared has initialized stages only, and to
prepare it again changes nothing. -/
theorem problems_of_definitions (backend : Backend) :
    (∀ definitions w (p : Pipeline) w', ofDefinitions definitions w = .ok (p, w') →
      p.stages.length = definitions.length ∧
      (∀ i d, definitions[i]? = some d → PlacedAt p.stages i d) ∧
      (p.stages ≠ [] →
        p.problems = (List.range p.stages.length).filterMap (problemAt? p.stages)) ∧
      (∀ i e, problemAt? p.stages i = some e → ∃ s, definitions[i]? = some (.stage s)) ∧
      (p.stages ≠ [] → (∀ d ∈ definitions, ∃ v, d = .value v) → p.problems = [])) ∧
    (∀ text w (p : Pipeline) w', ofJson text w = .ok (p, w') →
      p.stages ≠ [] → p.problems = []) ∧
    (∀ (rs : List Proper) w, (∃ p w', ofDefinitions (rs.map Proper.definition) w = .ok (p, w')) ↔
      (∀ r ∈ rs.head?, r.kind = .reader) ∧ ∀ r ∈ rs.tail, r.kind = .reprojection) ∧
    ∀ (σ : Setting) (p : Pipeline) (w : World), σ.Reachable backend →
      (∀ s ∈ p.stages, s ∈ σ.stages) → p.problems = [] → p.prepare backend σ.world = (.ok (), w) →
      (∀ s ∈ p.stages, (s.status w.statuses).initialized = true) ∧
        p.prepare backend w = (.ok (), w) := by
  refine ⟨?_, ?_, exists_ofDefinitions_iff, ?_⟩
  · intro definitions w p w' h
    obtain ⟨hlength, hplaced⟩ := placedAt_of_ofDefinitions h
    exact ⟨hlength, hplaced, problems_eq, fun i e => exists_stage_of_problemAt? hlength hplaced,
      fun hne => problems_eq_nil hne hlength hplaced⟩
  · intro text w p w' h hne
    unfold ofJson at h
    split at h
    · cases h
    · split at h
      · cases h
      · next hdefinitions =>
        obtain ⟨hlength, hplaced⟩ := placedAt_of_ofDefinitions h
        exact problems_eq_nil hne hlength hplaced (values_of_definitionsOf hdefinitions)
  · intro σ p w hreachable hmem _ h
    exact initialized_of_prepare (Setting.sound_of_reachable hreachable) hmem h

def Proper.ofReader : Proper where
  kind := .reader
  record := [("type", .text "readers.faux"), ("bounds", .text "[0,1][0,1]"),
    ("num_points", .whole 3)]
  type_eq := rfl
  accepts := ⟨0, 0, exists_of_isOk (by decide +kernel)⟩

def Proper.ofReprojection : Proper where
  kind := .reprojection
  record := [("type", .text "filters.reprojection"), ("out_srs", .text "T:SHIFT")]
  type_eq := rfl
  accepts := ⟨1, 0, .ramp 2, exists_of_isOk (by decide +kernel)⟩

/-- A ramp between a source and a reprojection that are defined by records. -/
def rampBetween : List Definition :=
  [Proper.ofReader.definition, .stage (.ramp 2), Proper.ofReprojection.definition]

theorem problems_of_rampBetween :
    (∃ p w', ofDefinitions rampBetween (.start 0) = .ok (p, w') ∧
      p.problems = ["readers.faux is not a filter"] ∧
      problemAt? p.stages 0 = none ∧ problemAt? p.stages 2 = none) ∧
    (∃ p w', ofJson (Text.ofPlain twoStages) (.start 0) = .ok (p, w') ∧ p.problems = []) ∧
    (∃ p w', ofDefinitions ([.ofReader, .ofReprojection].map Proper.definition) (.start 0) =
      .ok (p, w')) ∧
    (¬∃ p w', ofDefinitions ([.ofReprojection, .ofReader].map Proper.definition) (.start 0) =
      .ok (p, w')) ∧
    (∀ s ∈ (Pipeline.ofRamp 2 "T:SHIFT").stages,
      (s.status (World.ofRamp 2 "T:SHIFT").statuses).initialized = true) := by
  obtain ⟨hplaced, hjson, hproper, hprepare⟩ := problems_of_definitions Local.backend
  refine ⟨?_, ?_, ?_, ?_, ?_⟩
  · have hproblems : (ofDefinitions rampBetween (.start 0)).toOption.map
        (fun result => result.1.problems) = some ["readers.faux is not a filter"] := by
      decide +kernel
    cases h : ofDefinitions rampBetween (.start 0) with
    | error e =>
        rw [h] at hproblems
        cases hproblems
    | ok result =>
        rw [h] at hproblems
        obtain ⟨_, _, _, hstage, _⟩ := hplaced _ _ _ _ h
        have hnone : ∀ i, (∀ s, rampBetween[i]? ≠ some (.stage s)) →
            problemAt? result.1.stages i = none := by
          intro i hvalue
          by_contra hsome
          obtain ⟨e, he⟩ := Option.ne_none_iff_exists'.mp hsome
          obtain ⟨s, hs⟩ := hstage i e he
          exact hvalue s hs
        exact ⟨result.1, result.2, rfl, Option.some.inj hproblems, hnone 0 nofun, hnone 2 nofun⟩
  · have hlength : (ofJson (Text.ofPlain twoStages) (.start 0)).toOption.map
        (fun result => result.1.stages.length) = some 2 := by decide +kernel
    cases h : ofJson (Text.ofPlain twoStages) (.start 0) with
    | error e =>
        rw [h] at hlength
        cases hlength
    | ok result =>
        rw [h] at hlength
        have hlength : result.1.stages.length = 2 := Option.some.inj hlength
        refine ⟨result.1, result.2, rfl, hjson _ _ _ _ h ?_⟩
        exact List.ne_nil_of_length_pos (by omega)
  · exact (hproper [.ofReader, .ofReprojection] _).mpr
      ⟨fun r hr => by cases hr; rfl, fun r hr => by rw [List.mem_singleton.mp hr]; rfl⟩
  · intro h
    have hfirst := ((hproper [.ofReprojection, .ofReader] _).mp h).1 .ofReprojection rfl
    cases hfirst
  · have hstandard : Standard Local.backend (Setting.ofRamp 2 "T:SHIFT")
        (Pipeline.ofRamp 2 "T:SHIFT") (.rampTo 2 "T:SHIFT") (.ramp 2) (World.ofRamp 2 "T:SHIFT") :=
      .of_ramp rfl
    exact (hprepare _ _ _ hstandard.reachable hstandard.mem rfl hstandard.prepare_eq).1

end Pipeline

end PointStream

import PointStream.Proofs.Pipeline.Saving

namespace PointStream

/-- Arguments that can be told from what they are saved as. -/
structure Options.Savable (arguments : Options) : Prop where
  nodup : (arguments.map Prod.fst).Nodup
  texts : ∀ argument ∈ arguments, Text.IsText argument.1
  names : ∀ argument ∈ arguments, argument.1 ≠ "type" ∧ argument.1 ≠ "type_name"
  suit : arguments.Suit

/-- Arguments without whole numbers that an interpreter may refuse to turn into texts and back. -/
def Options.IsShort (arguments : Options) : Prop :=
  ∀ argument ∈ arguments, argument.2.IsShort

instance (arguments : Options) : Decidable arguments.IsShort :=
  inferInstanceAs (Decidable (∀ argument ∈ arguments, argument.2.IsShort))

theorem Options.isText_of_not_mem {options : Options}
    (h : ∀ option ∈ options, Text.escapeMark ∉ option.1.toList) :
    ∀ option ∈ options, Text.IsText option.1 :=
  fun option hoption => Text.isText_of_not_mem (h option hoption)

namespace Stage

/-- The ready-made stages of arguments: sources, and reprojections behind whatever is given. -/
inductive MadeFrom (arguments : Options) (s : Stage) : Prop where
  | reader (number drawn : Nat) (h : defineReader number drawn arguments = .ok s)
  | reprojection (number : Nat) (previous : Previous)
      (h : defineReprojection number previous arguments = .ok s)

namespace MadeFrom

variable {arguments : Options} {s : Stage}

theorem checkNames (h : s.MadeFrom arguments) : checkNames reserved arguments = .ok () := by
  cases h with
  | reader number drawn h =>
      obtain ⟨⟨⟩, hnames, _⟩ := exists_of_bind_eq_ok h
      exact hnames
  | reprojection number previous h =>
      obtain ⟨⟨⟩, hnames, _⟩ := exists_of_bind_eq_ok h
      exact hnames

theorem loose_of_defineFilter {number : Nat} {previous : Previous}
    {kind : Options → Except Failure (Options × FilterKind)}
    (h : defineFilter number previous arguments kind = .ok s)
    (hprevious : ∀ before, previous ≠ .stage before) : s.isFilter = true ∧ s.previous? = none := by
  obtain ⟨⟨⟩, _, h⟩ := exists_of_bind_eq_ok h
  split at h
  · cases h
  · obtain ⟨_, _, h⟩ := exists_of_bind_eq_ok h
    cases h
    exact ⟨rfl, rfl⟩
  · obtain ⟨_, _, h⟩ := exists_of_bind_eq_ok h
    cases h
    exact ⟨rfl, rfl⟩
  · obtain ⟨_, _, h⟩ := exists_of_bind_eq_ok h
    cases h
    exact ⟨rfl, rfl⟩
  · next before _ _ => exact absurd rfl (hprevious before)
  · cases h

theorem defines_or_loose (h : s.MadeFrom arguments) :
    Defines arguments s.previous? s ∨ s.isFilter = true ∧ s.previous? = none := by
  cases h with
  | reader number drawn h =>
      have hdefines := defines_reader h
      cases hdefines with
      | source number drawn hg => exact .inl (.source number drawn hg)
  | reprojection number previous h =>
      cases previous with
      | stage before =>
          have hdefines := defines_reprojection h
          cases hdefines with
          | filter number _ hprevious hr => exact .inl (.filter number before hprevious hr)
      | _ => exact .inr (loose_of_defineFilter h nofun)

end MadeFrom

end Stage

namespace Pipeline

open Stage

/-- A stage that a record of plain data could have defined, in place of another one that is saved as
the same record. -/
structure StandsFor (s' s : Stage) : Prop where
  recorded : Recorded s.previous? s'
  record : recordOf s' = (recordOf s).saved
  typeName : s'.typeName = s.typeName
  configuration : s'.configuration? = s.configuration?

theorem exists_standsFor {arguments : Options} {s : Stage} (hmade : s.MadeFrom arguments)
    (harguments : arguments.Savable) (hdefines : Defines arguments s.previous? s) :
    ∃ s', StandsFor s' s := by
  obtain ⟨s', hdefines', htype, hoptions, hconfiguration⟩ :=
    hdefines.exists_saved harguments.suit
  have hmem : ∀ option ∈ s.options, option ∈ arguments :=
    fun option hoption => hdefines.mem_arguments hoption
  have hnames : checkNames Registry.reserved arguments = .ok () := by
    have hself := checkNames_eq_ok.mp hmade.checkNames
    refine checkNames_eq_ok.mpr fun argument hargument => ?_
    have htypeName := (harguments.names argument hargument).2
    simpa [Registry.reserved, reserved, htypeName] using hself argument hargument
  have hkeys : ("type" :: s.options.map Prod.fst).Nodup :=
    hdefines.nodup_keys harguments.nodup fun argument h => (harguments.names argument h).1
  have hrecorded : Recorded s.previous? s' := by
    refine ⟨⟨arguments.saved, checkNames_saved hnames, hdefines'⟩, ?_, ?_, ?_⟩
    · rwa [hoptions, Options.map_fst_saved]
    · rw [hoptions]
      intro option hoption
      obtain ⟨given, hgiven, rfl⟩ := List.mem_map.mp hoption
      exact harguments.texts given (hmem given hgiven)
    · rw [hoptions]
      intro option hoption
      obtain ⟨given, hgiven, rfl⟩ := List.mem_map.mp hoption
      exact (harguments.suit given (hmem given hgiven)).isPlain_saved
  refine ⟨s', hrecorded, ?_, htype, hconfiguration⟩
  rw [hrecorded.recordOf_eq, recordOf_eq_record hkeys, Value.saved, Value.savedMembers_eq]
  unfold membersOf
  rw [htype, hoptions]
  rfl

theorem exists_row {stages : List Stage} {behind : Bool}
    (hhead : ∀ s ∈ stages.head?, s.previous?.isSome = behind)
    (htail : ∀ s ∈ stages.tail, s.previous?.isSome = true)
    (h : ∀ s ∈ stages, ∃ s', StandsFor s' s) :
    ∃ row, RecordedRow behind row ∧ row.map recordOf = (stages.map recordOf).map Value.saved ∧
      row.map Stage.typeName = stages.map Stage.typeName ∧
      row.map Stage.configuration? = stages.map Stage.configuration? := by
  induction stages generalizing behind with
  | nil => exact ⟨[], .nil behind, rfl, rfl, rfl⟩
  | cons s stages ih =>
      rw [List.forall_mem_cons] at h
      obtain ⟨⟨s', hs⟩, hstages⟩ := h
      obtain ⟨row, hrow, hrecords, htypes, hconfigurations⟩ :=
        ih (fun next hnext => htail next (List.mem_of_mem_head? hnext))
          (fun next hnext => htail next (List.mem_of_mem_tail hnext)) hstages
      refine ⟨s' :: row, ?_, congrArg₂ List.cons hs.record hrecords,
        congrArg₂ List.cons hs.typeName htypes,
        congrArg₂ List.cons hs.configuration hconfigurations⟩
      rw [← hhead s rfl]
      exact .cons hs.recorded hrow

theorem previous_of_linkProblems {first : Stage} {rest : List Stage}
    (h : linkProblems (first :: rest) = []) : ∀ s ∈ rest, s.previous?.isSome = true := by
  induction rest generalizing first with
  | nil => simp
  | cons s rest ih =>
      rw [linkProblems, List.append_eq_nil_iff, Option.toList_eq_nil_iff] at h
      refine List.forall_mem_cons.mpr ⟨?_, ih h.2⟩
      have hlink := h.1
      unfold linkProblem? at hlink
      split_ifs at hlink with hfilter hnumber
      obtain ⟨previous, hprevious, _⟩ := Option.map_eq_some_iff.mp hnumber
      rw [hprevious]
      rfl

theorem places_of_problems {p : Pipeline} (h : p.problems = []) :
    (∀ s ∈ p.stages.head?, s.isFilter = false) ∧
      ∀ s ∈ p.stages.tail, s.previous?.isSome = true := by
  unfold problems at h
  split at h
  · cases h
  · next first rest hstages =>
    rw [hstages, List.append_eq_nil_iff] at h
    rw [hstages]
    refine ⟨?_, previous_of_linkProblems h.2⟩
    rintro s ⟨⟩
    cases hfirst : first.isFilter with
    | false => rfl
    | true =>
        rw [hfirst] at h
        cases h.1

/-- The JSON value that holds the records of stages. -/
def valueOf (stages : List Stage) : Value :=
  .record [("pipeline", .list (stages.map recordOf))]

theorem RecordedRow.isPlain_valueOf {stages : List Stage} {behind : Bool}
    (h : RecordedRow behind stages) : (valueOf stages).IsPlain := by
  refine .record (List.nodup_singleton _) ?_ ?_
  · exact List.forall_mem_singleton.mpr (Text.isText_of_not_mem (s := "pipeline") (by decide))
  · refine List.forall_mem_singleton.mpr (.list ?_)
    simpa using h.isPlain

theorem RecordedRow.exists_ofJson {stages : List Stage} (h : RecordedRow false stages)
    {saved : String} (hsaved : Json.read? saved = some (valueOf stages)) (u : World) :
    ∃ q u', ofJson saved u = .ok (q, u') ∧
      q.stages.map Stage.typeName = stages.map Stage.typeName ∧
      q.stages.map Stage.configuration? = stages.map Stage.configuration? := by
  obtain ⟨again, u', hagain, htypes, _, hconfigurations⟩ := h.exists_again [] rfl u
  rw [List.nil_append] at hagain
  have hdefinitions : definitionsOf (valueOf stages) = .ok ((stages.map recordOf).map .value) := rfl
  refine ⟨⟨u'.pipelines, again⟩, { u' with pipelines := u'.pipelines + 1 }, ?_, htypes,
    hconfigurations⟩
  unfold ofJson ofDefinitions
  simp only [hsaved, hdefinitions, hagain]

theorem previous?_of_source {s : Stage} (h : s.isFilter = false) : s.previous? = none := by
  cases s with
  | source => rfl
  | _ => cases h

/-- The configurations of the stages of a pipeline, if these have them. -/
def configurations (p : Pipeline) : List (Option Configuration) :=
  p.stages.map Stage.configuration?

/-- A pipeline is restored if it is saved, and what it is saved as is read in any world as a
pipeline of the same types of stages with the same configurations. -/
def Restored (p : Pipeline) : Prop :=
  ∃ saved, p.toJson = .ok saved ∧ ∀ u : World, ∃ q u', ofJson saved u = .ok (q, u') ∧
    q.stages.map Stage.typeName = p.stages.map Stage.typeName ∧
    q.configurations = p.configurations

/-- Whether the text that a pipeline is saved as can be relied on to be written and read: no whole
number in it has more digits than an interpreter turns into a text and back. -/
def SavedShort (p : Pipeline) : Prop :=
  ∃ saved v, p.toJson = .ok saved ∧ Json.read? saved = some v ∧ v.IsShort

theorem isShort_valueOf {stages : List Stage} (h : ∀ s ∈ stages, (recordOf s).IsShort) :
    (valueOf stages).IsShort := by
  rw [valueOf, Value.isShort_record_iff, List.forall_mem_singleton, Value.isShort_list_iff,
    List.forall_mem_map]
  exact h

section ReadyMade

variable {p : Pipeline} {s : Stage} {arguments : Options}

theorem defines_of_problems (hproblems : p.problems = []) (hs : s ∈ p.stages)
    (hmade : s.MadeFrom arguments) : Defines arguments s.previous? s := by
  refine hmade.defines_or_loose.resolve_right ?_
  rintro ⟨hfilter, hloose⟩
  obtain ⟨hhead, htail⟩ := places_of_problems hproblems
  cases hstages : p.stages with
  | nil =>
      rw [hstages] at hs
      cases hs
  | cons first rest =>
      rw [hstages] at hs hhead htail
      rcases List.mem_cons.mp hs with rfl | hs
      · exact absurd (hhead s rfl) (by simp [hfilter])
      · exact absurd (htail s hs) (by simp [hloose])

section Savable

variable (hmade : ∀ s ∈ p.stages, ∃ arguments : Options, arguments.Savable ∧ s.MadeFrom arguments)
  (hproblems : p.problems = [])

include hmade hproblems

theorem exists_row_of_savable :
    ∃ row, RecordedRow false row ∧ (valueOf p.stages).saved = valueOf row ∧
      row.map Stage.typeName = p.stages.map Stage.typeName ∧
      row.map Stage.configuration? = p.stages.map Stage.configuration? := by
  obtain ⟨hhead, htail⟩ := places_of_problems hproblems
  have hfirst : ∀ s ∈ p.stages.head?, s.previous?.isSome = false := by
    intro s hs
    rw [previous?_of_source (hhead s hs)]
    rfl
  obtain ⟨row, hrow, hrecords, htypes, hconfigurations⟩ := exists_row hfirst htail fun s hs => by
    obtain ⟨arguments, harguments, hmade⟩ := hmade s hs
    exact exists_standsFor hmade harguments (defines_of_problems hproblems hs hmade)
  refine ⟨row, hrow, ?_, htypes, hconfigurations⟩
  unfold valueOf
  rw [hrecords]
  simp only [Value.saved, Value.savedMembers, Value.savedAll_eq]

theorem exists_saved :
    ∃ saved, p.toJson = .ok saved ∧ Json.read? saved = some (valueOf p.stages).saved := by
  obtain ⟨row, hrow, hvalue, _⟩ := exists_row_of_savable hmade hproblems
  obtain ⟨saved, htext, hread⟩ :=
    Json.exists_text_saved (hvalue ▸ hrow.isPlain_valueOf) (.lines 0)
  unfold valueOf at htext
  refine ⟨saved, ?_, hread⟩
  rw [toJson, htext]
  rfl

theorem savedShort_iff : p.SavedShort ↔ (valueOf p.stages).IsShort := by
  obtain ⟨saved, htext, hread⟩ := exists_saved hmade hproblems
  rw [← Value.isShort_saved_iff]
  constructor
  · rintro ⟨saved', v, htext', hread', hshort⟩
    cases htext.symm.trans htext'
    cases hread.symm.trans hread'
    exact hshort
  · exact fun hshort => ⟨saved, _, htext, hread, hshort⟩

end Savable

end ReadyMade

/-- The pipeline of a source that is made from arguments, with a reprojection behind it if there are
arguments for one. -/
def ofArguments (source : Options) (reprojection? : Option Options) : Except Failure Pipeline := do
  let s ← Stage.defineReader 0 0 source
  match reprojection? with
  | none => pure ⟨0, [s]⟩
  | some arguments => do
    let f ← Stage.defineReprojection 1 (.stage s) arguments
    pure ⟨0, [s, f]⟩

theorem madeFrom_of_ofArguments {source : Options} {reprojection? : Option Options} {p : Pipeline}
    (h : ofArguments source reprojection? = .ok p) :
    p.problems = [] ∧
      ∀ s ∈ p.stages, ∃ arguments ∈ source :: reprojection?.toList, s.MadeFrom arguments := by
  obtain ⟨s, hs, h⟩ := exists_of_bind_eq_ok h
  have hmade := MadeFrom.reader 0 0 hs
  have hsource : s.isFilter = false := by
    have hdefines := defines_reader hs
    cases hdefines
    rfl
  cases reprojection? with
  | none =>
      cases h
      refine ⟨by simp [problems, linkProblems, hsource], ?_⟩
      exact List.forall_mem_singleton.mpr ⟨source, List.mem_cons_self, hmade⟩
  | some arguments =>
      obtain ⟨f, hf, h⟩ := exists_of_bind_eq_ok h
      cases h
      have hlink : linkProblem? s f = none := by
        have hdefines := defines_reprojection hf
        cases hdefines
        simp [linkProblem?, isFilter, previous?]
      refine ⟨by simp [problems, linkProblems, hsource, hlink], ?_⟩
      refine List.forall_mem_cons.mpr ⟨⟨source, List.mem_cons_self, hmade⟩, ?_⟩
      exact List.forall_mem_singleton.mpr ⟨arguments, by simp, .reprojection 1 (.stage s) hf⟩

/-- Arguments of a source with ready-made values of all kinds, and with a box that has a NaN. -/
def readyMade : Options :=
  [("note", .record [("scale", .real 0.5)]), ("spatialreference", .reference ⟨"T:BASE"⟩),
    ("bounds", .bounds ⟨⟨0.1, -2, 0⟩, ⟨3, 4, Double.nan.neg⟩⟩), ("num_points", .text " 1_0 "),
    ("mode", .mode .ramp),
    ("dimensions", .list [.dimension .xF64, .dimensionId .redU8, .text "time_u64"])]

/-- Arguments of a reprojection with a text that has blanks around it. -/
def toShift : Options :=
  [("in_srs", .text " T:HALF "), ("out_srs", .reference ⟨"T:SHIFT"⟩)]

theorem savable_readyMade : readyMade.Savable where
  nodup := by decide
  texts := Options.isText_of_not_mem (by decide)
  names := by decide
  suit := by
    unfold Options.Suit readyMade
    simp only [List.forall_mem_cons]
    refine ⟨.plain (.record (by decide) ?_ ?_), .reference ?_ fun _ => rfl, .bounds (by decide) _,
      .plain (.text ?_), .mode (by decide) _, .dimensions (by decide) ?_, by simp⟩
    · exact List.forall_mem_singleton.mpr (Text.isText_of_not_mem (by decide))
    · exact List.forall_mem_singleton.mpr (.real (by decide))
    · exact Text.isText_of_not_mem (by decide)
    · exact Text.isText_of_not_mem (by decide)
    · simp only [List.forall_mem_cons]
      exact ⟨.inr ⟨_, .inr rfl⟩, .inr ⟨_, .inl rfl⟩,
        .inl (.text (Text.isText_of_not_mem (by decide))), by simp⟩

theorem savable_toShift : toShift.Savable where
  nodup := by decide
  texts := Options.isText_of_not_mem (by decide)
  names := by decide
  suit := by
    unfold Options.Suit toShift
    simp only [List.forall_mem_cons]
    exact ⟨.plain (.text (Text.isText_of_not_mem (by decide))),
      .reference (Text.isText_of_not_mem (by decide)) fun _ => rfl, by simp⟩

/-- Arguments of a source of three points, behind some other ones. -/
def threePoints (options : Options) : Options :=
  options ++ [("bounds", .text "[0,1][0,1]"), ("num_points", .whole 3)]

/-- Whether the source of some arguments can be made, but is not restored in a new world. -/
def isLost (source : Options) : Bool :=
  match ofArguments source none with
  | .error _ => false
  | .ok p =>
    match p.toJson with
    | .error _ => true
    | .ok saved =>
      match ofJson saved (.start 0) with
      | .error _ => true
      | .ok (q, _) => q.configurations ≠ p.configurations

theorem exists_of_isLost {source : Options} (h : isLost source = true) :
    ∃ p, ofArguments source none = .ok p ∧ p.problems = [] ∧ ¬ p.Restored := by
  unfold isLost at h
  split at h
  · cases h
  · next p hp =>
    refine ⟨p, hp, (madeFrom_of_ofArguments hp).1, ?_⟩
    rintro ⟨saved, hsaved, hagain⟩
    obtain ⟨q, u', hq, _, hconfigurations⟩ := hagain (.start 0)
    simp [hsaved, hq, hconfigurations] at h

/-- Whether the source of some arguments can be made, with a whole number that is too long. -/
def isLong (source : Options) : Bool :=
  match ofArguments source none with
  | .error _ => false
  | .ok p => ¬ (valueOf p.stages).IsShort

theorem exists_of_isLong {source : Options} (hsavable : source.Savable)
    (h : isLong source = true) :
    ∃ p, ofArguments source none = .ok p ∧ p.problems = [] ∧ ¬ p.SavedShort := by
  unfold isLong at h
  split at h
  · cases h
  · next p hp =>
    obtain ⟨hproblems, hmade⟩ := madeFrom_of_ofArguments hp
    refine ⟨p, hp, hproblems, ?_⟩
    rw [savedShort_iff (fun s hs => ?_) hproblems]
    · exact of_decide_eq_true h
    · obtain ⟨arguments, hmem, hs⟩ := hmade s hs
      exact ⟨source, hsavable, List.mem_singleton.mp hmem ▸ hs⟩

/-- A whole number of one digit more than an interpreter turns into a text. -/
def longNote : Options :=
  [("note", .whole (10 ^ Value.digitLimit : Nat))]

theorem savable_longNote : (threePoints longNote).Savable where
  nodup := by decide
  texts := Options.isText_of_not_mem (by decide)
  names := by decide
  suit := by
    unfold Options.Suit threePoints longNote
    simp only [List.cons_append, List.nil_append, List.forall_mem_cons]
    exact ⟨.plain (.whole _), .plain (.text (Text.isText_of_not_mem (by decide))),
      .plain (.whole _), by simp⟩

end Pipeline

end PointStream

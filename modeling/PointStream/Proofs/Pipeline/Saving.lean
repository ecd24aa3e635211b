import PointStream.Pipeline.Basic
import PointStream.Proofs.Json.Reading
import PointStream.Proofs.Stage.Configuration

namespace PointStream

namespace Pipeline

open Stage

theorem define_eq_ok {w w' : World} {make : Nat → Except Failure Stage} {s : Stage}
    (h : w.define make = .ok (s, w')) : make w.numbers = .ok s := by
  unfold World.define at h
  split at h
  · cases h
  · next hmake =>
    cases h
    exact hmake

theorem exists_define {w : World} (make : Nat → Except Failure Stage) {s : Stage}
    (h : make w.numbers = .ok s) : ∃ w', w.define make = .ok (s, w') := by
  unfold World.define
  rw [h]
  exact ⟨_, rfl⟩

theorem defineStage_eq_ok {stages : List Stage} {record : Options} {w w' : World} {s : Stage}
    (h : defineStage stages record w = .ok (s, w')) :
    checkNames Registry.reserved (record.erase "type") = .ok () ∧
      Defines (record.erase "type") stages.getLast? s := by
  unfold defineStage at h
  split at h
  · next typeName _ =>
    dsimp only at h
    split_ifs at h with hreader hempty hfilter
    · obtain ⟨hnames, kind, rfl, hdefine⟩ := make_eq_ok (define_eq_ok h)
      rw [List.isEmpty_iff.mp hempty]
      cases kind with
      | reprojection => cases hreader
      | reader => exact ⟨hnames, defines_reader hdefine⟩
    · split at h
      · cases h
      · next previous hlast =>
        obtain ⟨hnames, kind, rfl, hdefine⟩ := make_eq_ok (define_eq_ok h)
        rw [hlast]
        cases kind with
        | reader => cases hfilter
        | reprojection => exact ⟨hnames, defines_reprojection hdefine⟩
  · cases h

/-- The members of the record that a stage is saved as. -/
def membersOf (s : Stage) : Options :=
  ("type", .text s.typeName) :: s.options

theorem erase_membersOf {s : Stage} (h : "type" ∉ s.options.map Prod.fst) :
    (membersOf s).erase "type" = s.options := by
  unfold membersOf Options.erase
  rw [List.filter_cons_of_neg (by simp), List.filter_eq_self]
  intro option hmem
  rw [bne_iff_ne]
  rintro htype
  exact h (htype ▸ List.mem_map_of_mem hmem)

theorem defineStage_reader {o : Options} (w : World) {record : Options}
    (htype : record.get? "type" = some (.text "readers.faux")) (ho : record.erase "type" = o) :
    defineStage [] record w =
      w.define fun number =>
        Registry.standard.make (.text "readers.faux") number w.drawn .absent o := by
  unfold defineStage
  rw [htype, ho]
  rfl

theorem defineStage_reprojection {stages : List Stage} {previous : Stage} {o : Options} (w : World)
    {record : Options} (hlast : stages.getLast? = some previous)
    (htype : record.get? "type" = some (.text "filters.reprojection"))
    (ho : record.erase "type" = o) :
    defineStage stages record w =
      w.define fun number =>
        Registry.standard.make (.text "filters.reprojection") number w.drawn (.stage previous)
          o := by
  unfold defineStage
  rw [htype, ho, hlast]
  rfl

theorem exists_defineStage {arguments : Options} {previous? : Option Stage} {s : Stage}
    (h : Defines arguments previous? s) (hnames : checkNames Registry.reserved arguments = .ok ())
    (htype : "type" ∉ s.options.map Prod.fst) {stages : List Stage}
    (hstages : stages.getLast?.isSome = previous?.isSome) (w : World) :
    ∃ s' w', defineStage stages (membersOf s) w = .ok (s', w') ∧ s'.typeName = s.typeName ∧
      s'.options = s.options ∧ s'.configuration? = s.configuration? := by
  have herase := erase_membersOf htype
  cases h with
  | source number drawn hg =>
      obtain ⟨seed, hmake⟩ := exists_make_reader hnames hg w.numbers w.drawn
      obtain ⟨w', hdefine⟩ := exists_define (fun number =>
        Registry.standard.make (.text "readers.faux") number w.drawn .absent _) hmake
      have hempty : stages = [] := by simpa using hstages
      rw [hempty, defineStage_reader w rfl herase]
      exact ⟨_, w', hdefine, rfl, rfl, rfl⟩
  | filter number previous hprevious hr =>
      obtain ⟨before, hlast⟩ := Option.isSome_iff_exists.mp hstages
      obtain ⟨w', hdefine⟩ := exists_define (fun number =>
          Registry.standard.make (.text "filters.reprojection") number w.drawn (.stage before) _)
        (make_reprojection_again hnames hprevious hr w.numbers w.drawn before)
      rw [defineStage_reprojection w hlast rfl herase]
      exact ⟨_, w', hdefine, rfl, rfl, rfl⟩

theorem foldl_put (front : Options) {options : Options}
    (h : ((front ++ options).map Prod.fst).Nodup) :
    options.foldl (fun record option => Options.put record option.1 option.2) front =
      front ++ options := by
  induction options generalizing front with
  | nil => rw [List.append_nil, List.foldl_nil]
  | cons option options ih =>
      have hnew : option.1 ∉ front.map Prod.fst := by
        rw [List.map_append, List.nodup_append] at h
        exact fun hmem => h.2.2 _ hmem _ List.mem_cons_self rfl
      rw [List.foldl_cons, Options.put_of_not_mem _ hnew, ih]
      · simp
      · simpa using h

theorem isShort_recordOf {s : Stage} (h : ∀ option ∈ s.options, option.2.IsShort) :
    (recordOf s).IsShort := by
  have htype : (Value.text s.typeName).IsShort := fun n hn => absurd hn List.not_mem_nil
  rw [recordOf, Value.isShort_record_iff]
  refine List.foldlRecOn (motive := fun record : Options => ∀ member ∈ record, member.2.IsShort)
    s.options _ (List.forall_mem_singleton.mpr htype) ?_
  intro record hrecord option hoption member hmember
  rcases Options.mem_put hmember with rfl | hmember
  · exact h option hoption
  · exact hrecord member hmember

theorem recordOf_eq_record {s : Stage} (h : ("type" :: s.options.map Prod.fst).Nodup) :
    recordOf s = .record (membersOf s) :=
  congrArg Value.record (foldl_put [("type", .text s.typeName)] h)

/-- What is known about a stage that a record of plain data has defined. -/
structure Recorded (previous? : Option Stage) (s : Stage) : Prop where
  defines : ∃ arguments, checkNames Registry.reserved arguments = .ok () ∧
    Defines arguments previous? s
  keys : ("type" :: s.options.map Prod.fst).Nodup
  texts : ∀ option ∈ s.options, Text.IsText option.1
  plain : ∀ option ∈ s.options, option.2.IsPlain

theorem recorded_of_defineStage {stages : List Stage} {record : Options} {w w' : World} {s : Stage}
    (hrecord : (Value.record record).IsPlain)
    (h : defineStage stages record w = .ok (s, w')) : Recorded stages.getLast? s := by
  obtain ⟨hnames, hdefines⟩ := defineStage_eq_ok h
  have hmem : ∀ argument ∈ record.erase "type", argument ∈ record ∧ argument.1 ≠ "type" := by
    intro argument hmem
    simpa [Options.erase] using hmem
  cases hrecord with
  | record hkeys htexts hplain =>
      refine ⟨⟨_, hnames, hdefines⟩, ?_, ?_, ?_⟩
      · exact hdefines.nodup_keys (hkeys.sublist (List.filter_sublist.map _))
          fun argument h => (hmem argument h).2
      · exact fun option h => htexts option (hmem option (hdefines.mem_arguments h)).1
      · exact fun option h => hplain option (hmem option (hdefines.mem_arguments h)).1

namespace Recorded

variable {previous? : Option Stage} {s : Stage}

theorem recordOf_eq (h : Recorded previous? s) : recordOf s = .record (membersOf s) :=
  recordOf_eq_record h.keys

theorem isText_typeName (h : Recorded previous? s) : Text.IsText s.typeName := by
  obtain ⟨arguments, _, hdefines⟩ := h.defines
  cases hdefines with
  | source => exact Text.isText_of_not_mem (s := "readers.faux") (by decide)
  | filter => exact Text.isText_of_not_mem (s := "filters.reprojection") (by decide)

theorem isPlain (h : Recorded previous? s) : (recordOf s).IsPlain := by
  rw [h.recordOf_eq]
  refine .record h.keys ?_ ?_
  · exact List.forall_mem_cons.mpr
      ⟨Text.isText_of_not_mem (s := "type") (by decide), h.texts⟩
  · exact List.forall_mem_cons.mpr ⟨.text h.isText_typeName, h.plain⟩

theorem exists_again (h : Recorded previous? s) {stages : List Stage}
    (hstages : stages.getLast?.isSome = previous?.isSome) (w : World) :
    ∃ s' w', defineStage stages (membersOf s) w = .ok (s', w') ∧ s'.typeName = s.typeName ∧
      s'.options = s.options ∧ s'.configuration? = s.configuration? := by
  obtain ⟨arguments, hnames, hdefines⟩ := h.defines
  exact exists_defineStage hdefines hnames (List.nodup_cons.mp h.keys).1 hstages w

end Recorded

/-- A row of stages that records of plain data have defined, behind other stages or behind none. -/
inductive RecordedRow : Bool → List Stage → Prop where
  | nil (behind : Bool) : RecordedRow behind []
  | cons {previous? : Option Stage} {s : Stage} {stages : List Stage} (h : Recorded previous? s)
      (hstages : RecordedRow true stages) : RecordedRow previous?.isSome (s :: stages)

namespace RecordedRow

variable {behind : Bool} {stages : List Stage}

theorem isPlain (h : RecordedRow behind stages) : ∀ s ∈ stages, (recordOf s).IsPlain := by
  induction h with
  | nil => simp
  | cons h _ ih => exact List.forall_mem_cons.mpr ⟨h.isPlain, ih⟩

theorem exists_again (h : RecordedRow behind stages) (front : List Stage)
    (hfront : front.getLast?.isSome = behind) (w : World) :
    ∃ stages' w', defineStages front w ((stages.map recordOf).map .value) =
        .ok (front ++ stages', w') ∧
      stages'.map Stage.typeName = stages.map Stage.typeName ∧
      stages'.map Stage.options = stages.map Stage.options ∧
      stages'.map Stage.configuration? = stages.map Stage.configuration? := by
  induction h generalizing front w with
  | nil =>
      refine ⟨[], w, ?_, rfl, rfl, rfl⟩
      rw [List.append_nil]
      rfl
  | cons h _ ih =>
      obtain ⟨s', w₁, hagain, htype, hoptions, hconfiguration⟩ := h.exists_again hfront w
      obtain ⟨stages', w', hothers, htypes, hall, hconfigurations⟩ :=
        ih (front ++ [s']) (by simp) w₁
      refine ⟨s' :: stages', w', ?_, congrArg₂ List.cons htype htypes,
        congrArg₂ List.cons hoptions hall, congrArg₂ List.cons hconfiguration hconfigurations⟩
      rw [List.map_cons, h.recordOf_eq, List.map_cons, defineStages, hagain]
      simpa using hothers

end RecordedRow

/-- Stages of which the first is a source, and each other stands behind the one before it. -/
structure Linked (stages : List Stage) : Prop where
  head : ∀ s ∈ stages.head?, s.isFilter = false
  chain : stages.IsChain fun before s => s.previous? = some before

theorem linked_nil : Linked [] :=
  ⟨by simp, List.isChain_nil⟩

theorem Linked.append_singleton {stages : List Stage} {arguments : Options} {s : Stage}
    (h : Linked stages) (hs : Defines arguments stages.getLast? s) : Linked (stages ++ [s]) where
  head first hfirst := by
    rcases stages with _ | ⟨before, stages⟩
    · cases hfirst
      cases hs
      rfl
    · exact h.head first hfirst
  chain := by
    rw [List.isChain_append]
    refine ⟨h.chain, List.isChain_singleton s, ?_⟩
    intro before hbefore s' hs'
    cases hs'
    rw [Option.mem_def.mp hbefore] at hs
    cases hs
    rfl

theorem linked_defineStages {stages all : List Stage} {w w' : World} {vs : List Value}
    (hstages : Linked stages) (h : defineStages stages w (vs.map .value) = .ok (all, w')) :
    Linked all := by
  induction vs generalizing stages w with
  | nil =>
      cases h
      exact hstages
  | cons v vs ih =>
      cases v with
      | record record =>
          rw [List.map_cons, defineStages] at h
          split at h
          · cases h
          · next s w₁ hstage =>
            obtain ⟨_, hdefines⟩ := defineStage_eq_ok hstage
            exact ih (hstages.append_singleton hdefines) h
      | _ => cases h

theorem exists_recordedRow {stages all : List Stage} {w w' : World} {vs : List Value}
    (hvs : ∀ v ∈ vs, v.IsPlain) (h : defineStages stages w (vs.map .value) = .ok (all, w')) :
    ∃ added, all = stages ++ added ∧ RecordedRow stages.getLast?.isSome added := by
  induction vs generalizing stages w with
  | nil =>
      cases h
      exact ⟨[], (List.append_nil _).symm, .nil _⟩
  | cons v vs ih =>
      rw [List.forall_mem_cons] at hvs
      obtain ⟨hv, hvs⟩ := hvs
      cases v with
      | record record =>
          rw [List.map_cons, defineStages] at h
          split at h
          · cases h
          · next s w₁ hstage =>
            obtain ⟨added, rfl, hadded⟩ := ih hvs h
            rw [List.getLast?_concat] at hadded
            have hrecorded := recorded_of_defineStage hv hstage
            exact ⟨s :: added, List.append_assoc .., .cons hrecorded hadded⟩
      | _ => cases h

/-- Stages that records of plain data have defined are saved as records of plain data, which define
such stages again. -/
theorem exists_restored {stages all : List Stage} {w w' : World} {vs : List Value}
    (hvs : ∀ v ∈ vs, v.IsPlain)
    (h : defineStages stages w (vs.map .value) = .ok (all, w')) :
    ∃ added, all = stages ++ added ∧ (∀ s ∈ added, (recordOf s).IsPlain) ∧
      ∀ (stages' : List Stage) (u : World),
        stages'.getLast?.isSome = stages.getLast?.isSome →
        ∃ added' u', defineStages stages' u ((added.map recordOf).map .value) =
            .ok (stages' ++ added', u') ∧
          added'.map Stage.typeName = added.map Stage.typeName ∧
          added'.map Stage.options = added.map Stage.options := by
  obtain ⟨added, hall, hadded⟩ := exists_recordedRow hvs h
  refine ⟨added, hall, hadded.isPlain, fun stages' u hlast => ?_⟩
  obtain ⟨added', u', hagain, htypes, hoptions, _⟩ := hadded.exists_again stages' hlast u
  exact ⟨added', u', hagain, htypes, hoptions⟩

theorem isPlain_of_items? {v : Value} {items : List Value} (hv : v.IsPlain)
    (h : v.items? = some items) : ∀ item ∈ items, item.IsPlain := by
  cases hv with
  | list hitems =>
      cases h
      exact hitems
  | text htext =>
      cases h
      obtain ⟨ns, hns, rfl⟩ := htext
      rw [Text.codePoints_ofCodePoints hns.inRange]
      simp only [List.mem_map]
      rintro _ ⟨n, hn, rfl⟩
      refine .text ⟨[n], ⟨?_, List.isChain_singleton n⟩, rfl⟩
      rintro m hm
      rw [List.mem_singleton.mp hm]
      exact hns.inRange n hn
  | record hkeys htexts hplain =>
      cases h
      simp only [List.mem_map]
      rintro _ ⟨member, hmember, rfl⟩
      exact .text (htexts member hmember)
  | _ => cases h

theorem exists_of_definitionsOf {v : Value} {definitions : List Definition} (hv : v.IsPlain)
    (h : definitionsOf v = .ok definitions) :
    ∃ vs : List Value, definitions = vs.map .value ∧ ∀ v ∈ vs, v.IsPlain := by
  unfold definitionsOf at h
  cases hv with
  | @record members hkeys htexts hplain =>
      have hsource : ((Options.get? members "pipeline").getD (.list [])).IsPlain := by
        cases hget : Options.get? members "pipeline" with
        | none => exact .list (by simp)
        | some v => exact hplain _ (Options.mem_of_get? hget)
      dsimp only at h
      split at h
      · cases h
      · next items hitems =>
        cases h
        exact ⟨items, rfl, isPlain_of_items? hsource hitems⟩
  | @list items hitems =>
      cases h
      exact ⟨items, rfl, hitems⟩
  | _ => cases h

theorem map_recordOf_congr {stages stages' : List Stage}
    (htypes : stages'.map Stage.typeName = stages.map Stage.typeName)
    (hoptions : stages'.map Stage.options = stages.map Stage.options) :
    stages'.map recordOf = stages.map recordOf := by
  have hzip (stages : List Stage) : stages.map recordOf =
      List.zipWith (fun typeName (options : Options) => Value.record
        (options.foldl (fun record option => Options.put record option.1 option.2)
          [("type", .text typeName)])) (stages.map Stage.typeName) (stages.map Stage.options) := by
    rw [List.zipWith_map, List.zipWith_self]
    rfl
  rw [hzip, hzip, htypes, hoptions]

theorem ofJson_eq_ok {text : String} {w w' : World} {p : Pipeline}
    (h : ofJson text w = .ok (p, w')) : ∃ v definitions, Json.read? text = some v ∧
      definitionsOf v = .ok definitions ∧
      ∃ w₁, defineStages [] w definitions = .ok (p.stages, w₁) := by
  unfold ofJson at h
  split at h
  · cases h
  · next v hv =>
    split at h
    · cases h
    · next definitions hdefinitions =>
      unfold ofDefinitions at h
      split at h
      · cases h
      · next stages w₁ hstages =>
        cases h
        exact ⟨v, definitions, hv, hdefinitions, w₁, hstages⟩

/-- A pipeline that was read from JSON is saved as a text from which it can be read again, in any
world: the stages have the same types and the same options in the same order, each filter stands
behind the stage before it, and what was read is saved as the same text. -/
theorem exists_toJson {text : String} {w w' : World} {p : Pipeline}
    (h : ofJson (Text.ofPlain text) w = .ok (p, w')) :
    ∃ saved, p.toJson = .ok saved ∧ ∀ u : World, ∃ q u', ofJson saved u = .ok (q, u') ∧
      q.stages.map Stage.typeName = p.stages.map Stage.typeName ∧
      q.stages.map Stage.options = p.stages.map Stage.options ∧
      Linked q.stages ∧ q.toJson = .ok saved := by
  obtain ⟨v, definitions, hread, hdefinitions, w₁, hstages⟩ := ofJson_eq_ok h
  obtain ⟨vs, rfl, hvs⟩ := exists_of_definitionsOf (Json.isPlain_of_read? hread) hdefinitions
  obtain ⟨added, hadded, hplain, hrestored⟩ := exists_restored hvs hstages
  rw [List.nil_append] at hadded
  have hlist : (Value.list (p.stages.map recordOf)).IsPlain := by
    rw [hadded]
    refine .list ?_
    simpa using hplain
  have hrecord : (Value.record [("pipeline", .list (p.stages.map recordOf))]).IsPlain := by
    refine .record (List.nodup_singleton _) ?_ ?_
    · exact List.forall_mem_singleton.mpr
        (Text.isText_of_not_mem (s := "pipeline") (by decide))
    · exact List.forall_mem_singleton.mpr hlist
  obtain ⟨saved, htext, hsaved⟩ := Json.exists_text hrecord (.lines 0)
  refine ⟨saved, by rw [toJson, htext]; rfl, fun u => ?_⟩
  obtain ⟨stages, u₁, hagain, htypes, hoptions⟩ := hrestored [] u rfl
  rw [List.nil_append] at hagain
  refine ⟨⟨u₁.pipelines, stages⟩, { u₁ with pipelines := u₁.pipelines + 1 }, ?_, ?_, ?_, ?_, ?_⟩
  · have hdefinitions : definitionsOf (.record [("pipeline", .list (p.stages.map recordOf))]) =
        .ok ((added.map recordOf).map .value) := by
      rw [hadded]
      rfl
    unfold ofJson ofDefinitions
    simp only [hsaved, hdefinitions, hagain]
  · rw [hadded]
    exact htypes
  · rw [hadded]
    exact hoptions
  · exact linked_defineStages linked_nil hagain
  · have hsame : stages.map recordOf = p.stages.map recordOf := by
      rw [hadded]
      exact map_recordOf_congr htypes hoptions
    unfold toJson
    dsimp only
    rw [hsame, htext]
    rfl

/-- A source with a parameter that is null and an option that is no number, and a reprojection. -/
def twoStages : String :=
  "[\x7b\"mode\":null,\"bounds\":\"[0,1][0,1]\",\"num_points\":3,"
    ++ "\"x\":NaN,\"type\":\"readers.faux\"\x7d,"
    ++ "\x7b\"type\":\"filters.reprojection\",\"out_srs\":\"T:BULK\"\x7d]"

theorem exists_toJson_twoStages :
    ∃ p w', ofJson (Text.ofPlain twoStages) (.start 0) = .ok (p, w') ∧
      p.stages.map Stage.typeName = ["readers.faux", "filters.reprojection"] ∧
      ∃ saved, p.toJson = .ok saved ∧ ∀ u : World, ∃ q u', ofJson saved u = .ok (q, u') ∧
        q.stages.map Stage.typeName = p.stages.map Stage.typeName ∧
        q.stages.map Stage.options = p.stages.map Stage.options ∧
        Linked q.stages ∧ q.toJson = .ok saved := by
  have htypes : (ofJson (Text.ofPlain twoStages) (.start 0)).toOption.map
      (fun result => result.1.stages.map Stage.typeName) =
        some ["readers.faux", "filters.reprojection"] := by decide +kernel
  cases h : ofJson (Text.ofPlain twoStages) (.start 0) with
  | error e =>
      rw [h] at htypes
      cases htypes
  | ok result =>
      rw [h] at htypes
      exact ⟨result.1, result.2, rfl, Option.some.inj htypes, exists_toJson h⟩

end Pipeline

end PointStream

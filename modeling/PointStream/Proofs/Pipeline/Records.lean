import PointStream.Proofs.Pipeline.Saving

namespace PointStream

/-- Whether a kind of stage accepts arguments in the place that it belongs in: a source behind
nothing, and a reprojection behind some stage. -/
def BuiltIn.Accepts (arguments : Options) : BuiltIn → Prop
  | reader => ∃ number drawn s,
      Registry.standard.make (.text "readers.faux") number drawn .absent arguments = .ok s
  | reprojection => ∃ number drawn previous s,
      Registry.standard.make (.text "filters.reprojection") number drawn (.stage previous)
        arguments = .ok s

theorem BuiltIn.Accepts.exists_reader {arguments : Options} (h : reader.Accepts arguments)
    (number drawn : Nat) :
    ∃ s, Registry.standard.make (.text "readers.faux") number drawn .absent arguments =
      .ok s := by
  obtain ⟨_, _, _, h⟩ := h
  obtain ⟨hnames, kind, hkind, h⟩ := Stage.make_eq_ok h
  cases kind with
  | reprojection => exact absurd hkind (by decide)
  | reader =>
      cases Stage.defines_reader h with
      | source _ _ hg =>
          obtain ⟨g, hg⟩ := Generator.exists_ofOptions hg drawn
          rw [Stage.make_reader number drawn hnames]
          unfold Stage.defineReader
          dsimp only
          rw [Stage.checkNames_reserved hnames, hg]
          exact ⟨_, rfl⟩

theorem BuiltIn.Accepts.exists_reprojection {arguments : Options}
    (h : reprojection.Accepts arguments) (number drawn : Nat) (previous : Stage) :
    ∃ s, Registry.standard.make (.text "filters.reprojection") number drawn (.stage previous)
      arguments = .ok s := by
  obtain ⟨_, _, _, _, h⟩ := h
  obtain ⟨hnames, kind, hkind, h⟩ := Stage.make_eq_ok h
  cases kind with
  | reader => exact absurd hkind (by decide)
  | reprojection =>
      cases Stage.defines_reprojection h with
      | filter _ _ hprevious hr =>
          rw [Stage.make_reprojection number drawn hnames]
          unfold Stage.defineReprojection Stage.defineFilter
          dsimp only
          rw [Stage.checkNames_reserved hnames, hprevious, hr]
          exact ⟨_, rfl⟩

namespace Pipeline

theorem defineStage_sourceNotFirst {first : Stage} {rest : List Stage} {record : Options}
    (htype : record.get? "type" = some (.text "readers.faux")) (w : World) :
    defineStage (first :: rest) record w = .error (.sourceNotFirst (.record record)) := by
  unfold defineStage
  rw [htype]
  rfl

theorem defineStage_filterFirst {record : Options}
    (htype : record.get? "type" = some (.text "filters.reprojection")) (w : World) :
    defineStage [] record w = .error (.filterFirst (.record record)) := by
  unfold defineStage
  rw [htype]
  rfl

/-- A record of a registered type whose options are accepted defines a stage if and only if it is
that of a source at the head, or of a filter anywhere else. -/
theorem exists_defineStage_iff (stages : List Stage) {record : Options} {kind : BuiltIn}
    (htype : record.get? "type" = some (.text kind.typeName))
    (haccepts : kind.Accepts (record.erase "type")) (w : World) :
    (∃ s w', defineStage stages record w = .ok (s, w')) ↔ (kind = .reader ↔ stages = []) := by
  cases kind with
  | reader =>
      cases stages with
      | nil =>
          obtain ⟨s, hmake⟩ := haccepts.exists_reader w.numbers w.drawn
          obtain ⟨w', hdefine⟩ := exists_define (fun number => Registry.standard.make
            (.text "readers.faux") number w.drawn .absent _) hmake
          refine iff_of_true ⟨s, w', ?_⟩ (iff_of_true rfl rfl)
          rw [defineStage_reader w htype rfl, hdefine]
      | cons first rest =>
          refine iff_of_false ?_ (by simp)
          rintro ⟨s, w', h⟩
          rw [defineStage_sourceNotFirst htype] at h
          cases h
  | reprojection =>
      rcases List.eq_nil_or_concat' stages with rfl | ⟨front, before, rfl⟩
      · refine iff_of_false ?_ (by simp)
        rintro ⟨s, w', h⟩
        rw [defineStage_filterFirst htype] at h
        cases h
      · obtain ⟨s, hmake⟩ := haccepts.exists_reprojection w.numbers w.drawn before
        obtain ⟨w', hdefine⟩ := exists_define (fun number => Registry.standard.make
          (.text "filters.reprojection") number w.drawn (.stage before) _) hmake
        refine iff_of_true ⟨s, w', ?_⟩ (by simp)
        rw [defineStage_reprojection w List.getLast?_concat htype rfl, hdefine]

/-- A record of a registered type with options that are accepted for it. -/
structure Proper where
  kind : BuiltIn
  record : Options
  type_eq : record.get? "type" = some (.text kind.typeName)
  accepts : kind.Accepts (record.erase "type")

def Proper.definition (r : Proper) : Definition :=
  .value (.record r.record)

theorem exists_defineStages_cons_iff (stages : List Stage) (r : Proper) (rs : List Proper)
    (w : World) :
    (∃ all w', defineStages stages w ((r :: rs).map Proper.definition) = .ok (all, w')) ↔
      ∃ s w₁, defineStage stages r.record w = .ok (s, w₁) ∧
        ∃ all w', defineStages (stages ++ [s]) w₁ (rs.map Proper.definition) = .ok (all, w') := by
  rw [List.map_cons, Proper.definition, defineStages]
  cases hstage : defineStage stages r.record w with
  | error e =>
      apply iff_of_false
      · rintro ⟨_, _, h⟩
        cases h
      · rintro ⟨_, _, h, _⟩
        cases h
  | ok defined =>
      obtain ⟨s, w₁⟩ := defined
      constructor
      · exact fun h => ⟨s, w₁, rfl, h⟩
      · rintro ⟨_, _, heq, h⟩
        cases heq
        exact h

theorem exists_defineStages_iff {stages : List Stage} (hstages : stages ≠ []) (rs : List Proper)
    (w : World) :
    (∃ all w', defineStages stages w (rs.map Proper.definition) = .ok (all, w')) ↔
      ∀ r ∈ rs, r.kind = .reprojection := by
  induction rs generalizing stages w with
  | nil => exact iff_of_true ⟨stages, w, rfl⟩ nofun
  | cons r rs ih =>
      have hiff := exists_defineStage_iff stages r.type_eq r.accepts w
      have hkind : (r.kind = .reader ↔ stages = []) ↔ r.kind = .reprojection := by
        cases r.kind <;> simp [hstages]
      rw [exists_defineStages_cons_iff, List.forall_mem_cons, ← hkind, ← hiff]
      constructor
      · rintro ⟨s, w₁, hs, hrest⟩
        exact ⟨⟨s, w₁, hs⟩, (ih (by simp) w₁).mp hrest⟩
      · rintro ⟨⟨s, w₁, hs⟩, hrest⟩
        exact ⟨s, w₁, hs, (ih (by simp) w₁).mpr hrest⟩

theorem exists_ofDefinitions_eq_ok_iff {definitions : List Definition} {w : World} :
    (∃ p w', ofDefinitions definitions w = .ok (p, w')) ↔
      ∃ all w', defineStages [] w definitions = .ok (all, w') := by
  unfold ofDefinitions
  cases defineStages [] w definitions with
  | error e =>
      apply iff_of_false
      · rintro ⟨_, _, h⟩
        cases h
      · rintro ⟨_, _, h⟩
        cases h
  | ok defined => exact iff_of_true ⟨_, _, rfl⟩ ⟨_, _, rfl⟩

theorem exists_ofDefinitions_iff (rs : List Proper) (w : World) :
    (∃ p w', ofDefinitions (rs.map Proper.definition) w = .ok (p, w')) ↔
      (∀ r ∈ rs.head?, r.kind = .reader) ∧ ∀ r ∈ rs.tail, r.kind = .reprojection := by
  rw [exists_ofDefinitions_eq_ok_iff]
  cases rs with
  | nil => exact iff_of_true ⟨[], w, rfl⟩ ⟨nofun, nofun⟩
  | cons r rs =>
      have hiff := exists_defineStage_iff [] r.type_eq r.accepts w
      rw [iff_true_right rfl] at hiff
      have hhead : (∀ r' ∈ (r :: rs).head?, r'.kind = .reader) ↔ r.kind = .reader := by simp
      rw [exists_defineStages_cons_iff, hhead, List.tail_cons, ← hiff]
      constructor
      · rintro ⟨s, w₁, hs, hrest⟩
        exact ⟨⟨s, w₁, hs⟩, (exists_defineStages_iff (by simp) rs w₁).mp hrest⟩
      · rintro ⟨⟨s, w₁, hs⟩, hrest⟩
        exact ⟨s, w₁, hs, (exists_defineStages_iff (by simp) rs w₁).mpr hrest⟩

end Pipeline

end PointStream

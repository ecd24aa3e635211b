import PointStream.Proofs.Failure
import PointStream.Proofs.Stage.Options
import PointStream.Registry

namespace PointStream

theorem Generator.exists_seedOf {drawn seed : Nat} {v? : Option Value}
    (h : seedOf drawn v? = .ok seed) (other : Nat) : ∃ seed', seedOf other v? = .ok seed' := by
  unfold seedOf at h ⊢
  split at h
  · exact ⟨_, rfl⟩
  · exact ⟨_, rfl⟩
  · exact ⟨_, h⟩

theorem Generator.exists_ofOptions {drawn : Nat} {options : Options} {g : Generator}
    (h : ofOptions drawn options = .ok g) (other : Nat) :
    ∃ seed, ofOptions other options = .ok { g with seed := seed } := by
  obtain ⟨box, hbox, h⟩ := exists_of_bind_eq_ok h
  obtain ⟨points, hpoints, h⟩ := exists_of_bind_eq_ok h
  obtain ⟨bounds, hbounds, h⟩ := exists_of_bind_eq_ok h
  obtain ⟨total, htotal, h⟩ := exists_of_bind_eq_ok h
  obtain ⟨mode, hmode, h⟩ := exists_of_bind_eq_ok h
  obtain ⟨schema, hschema, h⟩ := exists_of_bind_eq_ok h
  obtain ⟨seed, hseed, h⟩ := exists_of_bind_eq_ok h
  cases h
  obtain ⟨seed', hseed'⟩ := exists_seedOf hseed other
  refine ⟨seed', ?_⟩
  simp only [ofOptions, hbox, hpoints, hbounds, htotal, hmode, hschema, hseed', bind, Except.bind]
  rfl

namespace Stage

theorem checkNames_eq_ok {reserved : List String} {arguments : Options} :
    checkNames reserved arguments = .ok () ↔ ∀ argument ∈ arguments, argument.1 ∉ reserved := by
  unfold checkNames
  split
  · next hany => simpa using hany
  · next hnone => simpa using hnone

theorem checkNames_withParameters {reserved : List String} {arguments : Options}
    (h : checkNames reserved arguments = .ok ()) (parameters : List String) :
    checkNames reserved (arguments.withParameters parameters) = .ok () := by
  rw [checkNames_eq_ok] at h ⊢
  exact fun argument hmem => h argument (Options.mem_of_mem_withParameters hmem)

theorem checkNames_reserved {arguments : Options}
    (h : checkNames Registry.reserved arguments = .ok ()) :
    checkNames reserved arguments = .ok () := by
  rw [checkNames_eq_ok] at h ⊢
  intro argument hmem hname
  exact h argument hmem (List.mem_append_left ["type_name"] hname)

/-- The stages that arguments define behind a stage, or behind none. -/
inductive Defines (arguments : Options) : Option Stage → Stage → Prop where
  | source (number drawn : Nat) {g : Generator}
      (hg : Generator.ofOptions drawn (arguments.withParameters Generator.parameters) = .ok g) :
      Defines arguments none
        (.source number (arguments.withParameters Generator.parameters) (.generated g))
  | filter (number : Nat) (previous : Stage) {r : Reprojection}
      (hprevious : arguments.get? "prev_stage" = none)
      (hr : Reprojection.ofOptions (arguments.withParameters Reprojection.parameters) = .ok r) :
      Defines arguments (some previous)
        (.filter number (arguments.withParameters Reprojection.parameters) (.reprojection r)
          previous)

theorem Defines.exists_parameters {arguments : Options} {previous? : Option Stage} {s : Stage}
    (h : Defines arguments previous? s) :
    ∃ parameters : List String, parameters.Nodup ∧
      s.options = arguments.withParameters parameters := by
  cases h with
  | source => exact ⟨Generator.parameters, by decide, rfl⟩
  | filter => exact ⟨Reprojection.parameters, by decide, rfl⟩

theorem Defines.mem_arguments {arguments : Options} {previous? : Option Stage} {s : Stage}
    (h : Defines arguments previous? s) {option : String × Value} (hoption : option ∈ s.options) :
    option ∈ arguments := by
  obtain ⟨parameters, _, hoptions⟩ := h.exists_parameters
  exact Options.mem_of_mem_withParameters (hoptions ▸ hoption)

theorem Defines.nodup_keys {arguments : Options} {previous? : Option Stage} {s : Stage}
    (h : Defines arguments previous? s) (hnodup : (arguments.map Prod.fst).Nodup)
    (htype : ∀ argument ∈ arguments, argument.1 ≠ "type") :
    ("type" :: s.options.map Prod.fst).Nodup := by
  rw [List.nodup_cons]
  constructor
  · intro hmem
    obtain ⟨option, hoption, heq⟩ := List.mem_map.mp hmem
    exact htype option (h.mem_arguments hoption) heq
  · obtain ⟨parameters, hparameters, hoptions⟩ := h.exists_parameters
    rw [hoptions]
    exact Options.nodup_withParameters hnodup hparameters

theorem make_eq_ok {name : String} {number drawn : Nat} {previous : Previous} {arguments : Options}
    {s : Stage}
    (h : Registry.standard.make (.text name) number drawn previous arguments = .ok s) :
    checkNames Registry.reserved arguments = .ok () ∧ ∃ kind : BuiltIn, name = kind.typeName ∧
      Stage.define kind number drawn previous arguments = .ok s := by
  obtain ⟨⟨⟩, hnames, h⟩ := exists_of_bind_eq_ok h
  obtain ⟨kind, hkind, h⟩ := exists_of_bind_eq_ok h
  refine ⟨hnames, kind, ?_, h⟩
  unfold Registry.find at hkind
  dsimp only at hkind
  split at hkind
  · next found hfound =>
    cases hkind
    have hname := List.find?_some hfound
    exact (eq_of_beq hname).symm
  · cases hkind

theorem defines_reader {number drawn : Nat} {arguments : Options} {s : Stage}
    (h : defineReader number drawn arguments = .ok s) : Defines arguments none s := by
  obtain ⟨_, _, h⟩ := exists_of_bind_eq_ok h
  obtain ⟨g, hg, h⟩ := exists_of_bind_eq_ok h
  cases h
  exact .source number drawn hg

theorem defines_reprojection {number : Nat} {previous s : Stage} {arguments : Options}
    (h : defineReprojection number (.stage previous) arguments = .ok s) :
    Defines arguments (some previous) s := by
  obtain ⟨_, _, h⟩ := exists_of_bind_eq_ok h
  cases hnone : arguments.get? "prev_stage" with
  | some v =>
      rw [hnone] at h
      cases h
  | none =>
      rw [hnone] at h
      obtain ⟨_, hkind, h⟩ := exists_of_bind_eq_ok h
      obtain ⟨r, hr, hkind⟩ := exists_of_bind_eq_ok hkind
      cases hkind
      cases h
      exact .filter number previous hnone hr

theorem make_reader (number drawn : Nat) {o : Options}
    (h : checkNames Registry.reserved o = .ok ()) :
    Registry.standard.make (.text "readers.faux") number drawn .absent o =
      defineReader number drawn o := by
  unfold Registry.make
  rw [h]
  rfl

theorem make_reprojection (number drawn : Nat) {previous : Stage} {o : Options}
    (h : checkNames Registry.reserved o = .ok ()) :
    Registry.standard.make (.text "filters.reprojection") number drawn (.stage previous) o =
      defineReprojection number (.stage previous) o := by
  unfold Registry.make
  rw [h]
  rfl

theorem exists_make_reader {drawn : Nat} {arguments : Options} {g : Generator}
    (hnames : checkNames Registry.reserved arguments = .ok ())
    (hg : Generator.ofOptions drawn (arguments.withParameters Generator.parameters) = .ok g)
    (number other : Nat) :
    ∃ seed, Registry.standard.make (.text "readers.faux") number other .absent
        (arguments.withParameters Generator.parameters) =
      .ok (.source number (arguments.withParameters Generator.parameters)
        (.generated { g with seed := seed })) := by
  obtain ⟨seed, hg'⟩ := Generator.exists_ofOptions hg other
  have hnames := checkNames_withParameters hnames Generator.parameters
  refine ⟨seed, ?_⟩
  rw [make_reader number other hnames]
  unfold defineReader
  dsimp only
  rw [checkNames_reserved hnames, Options.withParameters_idem, hg']
  rfl

theorem make_reprojection_again {arguments : Options} {r : Reprojection}
    (hnames : checkNames Registry.reserved arguments = .ok ())
    (hprevious : arguments.get? "prev_stage" = none)
    (hr : Reprojection.ofOptions (arguments.withParameters Reprojection.parameters) = .ok r)
    (number drawn : Nat) (before : Stage) :
    Registry.standard.make (.text "filters.reprojection") number drawn (.stage before)
        (arguments.withParameters Reprojection.parameters) =
      .ok (.filter number (arguments.withParameters Reprojection.parameters) (.reprojection r)
        before) := by
  have hnames := checkNames_withParameters hnames Reprojection.parameters
  rw [make_reprojection number drawn hnames]
  unfold defineReprojection defineFilter
  dsimp only
  rw [checkNames_reserved hnames, Options.get?_withParameters_eq_none hprevious,
    Options.withParameters_idem, hr]
  rfl

end Stage

end PointStream

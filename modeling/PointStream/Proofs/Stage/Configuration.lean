import PointStream.Proofs.Json.Saving
import PointStream.Proofs.Stage.Defining

namespace PointStream

/-- What the options of a stage set up, with one NaN for all. The seed of a source is not part of
it. -/
inductive Configuration where
  | source (bounds : Bounds) (total : Nat) (mode : Mode) (schema : Schema)
      (reference : SpatialReference)
  | reprojection (input : Option SpatialReference) (output : SpatialReference)
deriving DecidableEq

def Stage.configuration? : Stage → Option Configuration
  | .source _ options (.generated g) =>
    some (.source g.bounds.canonical g.total g.mode g.schema (options.reference "spatialreference"))
  | .filter _ _ (.reprojection r) _ => some (.reprojection r.input r.output)
  | .loose _ _ (.reprojection r) _ => some (.reprojection r.input r.output)
  | _ => none

/-- The options that give spatial references. -/
def Options.referenceNames : List String :=
  ["spatialreference", "in_srs", "out_srs"]

/-- The forms in which an option may be given, so that nothing is lost when it is saved. An option
that gives a reference is read as its text, which is what is saved only for plain data and for
references without blanks around them. The text of a list of dimensions is that of a box to the
option of this name. -/
inductive Value.Suits (name : String) : Value → Prop where
  | plain {v : Value} (h : v.IsPlain) : Suits name v
  | reference {r : SpatialReference} (htext : Text.IsText r.text)
      (htrim : name ∈ Options.referenceNames → Text.trim r.text = r.text) :
      Suits name (.reference r)
  | bounds (hname : name ∉ Options.referenceNames) (b : Bounds) : Suits name (.bounds b)
  | mode (hname : name ∉ Options.referenceNames) (m : Mode) : Suits name (.mode m)
  | dimensionId (hname : name ∉ Options.referenceNames) (d : Dimension) :
      Suits name (.dimensionId d)
  | dimension (hname : name ∉ Options.referenceNames) (d : Dimension) : Suits name (.dimension d)
  | dimensions (hname : name ∉ "bounds" :: Options.referenceNames) {items : List Value}
      (hitems : ∀ v ∈ items, v.IsPlain ∨ ∃ d, v = .dimensionId d ∨ v = .dimension d) :
      Suits name (.list items)

theorem Bounds.isText_text (b : Bounds) : Text.IsText b.text := by
  apply Text.isText_of_not_mem
  have hmark : Text.escapeMark ∉ Decimal.alphabet := by decide
  have hx (x : Double) : Text.escapeMark ∉ Decimal.shortestChars x := fun hmem =>
    hmark (Decimal.mem_alphabet_of_mem_shortestChars hmem)
  unfold Text.escapeMark at hx ⊢
  rw [text, String.toList_ofList]
  simp [chars, axisChars, hx]

theorem Bounds.mem_of_read {s : String} {b : Bounds} (h : read s = .ok b) : '[' ∈ s.toList := by
  by_contra hmem
  have hpairs (cs : List Char) (hcs : '[' ∉ cs) : pairs cs = [] := by
    induction cs with
    | nil => rw [pairs]
    | cons c cs ih =>
        rw [List.mem_cons, not_or] at hcs
        rw [pairs_cons_of_ne (Ne.symm hcs.1), ih hcs.2]
  rw [read, hpairs _ hmem] at h
  cases h

theorem Bounds.mem_describe (b : Bounds) : '(' ∈ b.describe.toList := by
  unfold describe
  simp only [String.toList_append, List.mem_append]
  iterate 6 apply Or.inl
  decide

theorem Dimension.mem_describe (d : Dimension) : '(' ∈ d.describe.toList := by
  unfold describe
  simp only [String.toList_append, List.mem_append]
  exact .inl (.inl (by decide))

theorem Text.mem_bracketed (items : List String) : '[' ∈ (bracketed items).toList := by
  unfold bracketed
  simp only [String.toList_append, List.mem_append]
  exact .inl (.inl (by decide))

theorem Value.mem_text_dimensionId (d : Dimension) :
    '.' ∈ (Value.dimensionId d).toText.toList := by
  unfold toText
  simp only [String.toList_append, List.mem_append]
  exact .inl (by decide)

theorem Mode.ofText?_name (m : Mode) : ofText? m.name = some m := by
  cases m <;> decide

theorem Mode.not_mem_of_ofText? {s : String} {m : Mode} (h : ofText? s = some m) {c : Char}
    (hc : c ∈ ['(', '[', '.']) : c ∉ s.toList := by
  intro hmem
  have hname : m.name = Text.uncapitalized (Text.trim s) := by
    simpa using List.find?_some h
  have hmark : ∀ c ∈ ['(', '[', '.'],
      (Text.isBlank c = false ∧ Text.smallLetter c = c) ∧ ∀ m ∈ all, c ∉ m.name.toList :=
    List.forall_iff_forall_mem.mp (by decide)
  obtain ⟨⟨hblank, hsmall⟩, hother⟩ := hmark c hc
  have hkey : c ∈ (Text.uncapitalized (Text.trim s)).toList := by
    rw [Text.uncapitalized, Text.trim, String.toList_ofList, String.toList_ofList]
    exact List.mem_map.mpr ⟨c, Text.mem_strip hmem hblank, hsmall⟩
  rw [← hname] at hkey
  exact hother m (by cases m <;> decide) hkey

theorem Mode.ofValue_text {s : String} {m : Mode} (h : ofText? s = some m) :
    ofValue (.text s) = .ok m := by
  unfold ofValue
  dsimp only [Value.toText]
  rw [h]

theorem Mode.ofText?_of_ofValue {v : Value} {m : Mode} (h : ofValue v = .ok m)
    (hv : ∀ m, v ≠ .mode m) : ofText? v.toText = some m := by
  unfold ofValue at h
  split at h
  · exact absurd rfl (hv _)
  · split at h
    · next heq => rw [heq, Except.ok.inj h]
    · cases h

theorem Dimension.ofKey_id (d : Dimension) : ofKey d.id = .ok d := by
  have hkey : ofKey? d.id = some d := by cases d <;> decide
  rw [ofKey, hkey]

namespace Value

theorem Suits.isPlain_saved {name : String} {v : Value} (h : v.Suits name) : v.saved.IsPlain := by
  have hdimension (d : Dimension) : IsPlain (.text d.id) :=
    .text (Text.isText_of_not_mem (by cases d <;> decide))
  cases h with
  | plain h =>
      rw [h.saved_eq]
      exact h
  | reference htext => exact .text htext
  | bounds _ b => exact .text b.isText_text
  | mode _ m => exact .text (Text.isText_of_not_mem (by cases m <;> decide))
  | dimensionId _ d => exact hdimension d
  | dimension _ d => exact hdimension d
  | dimensions _ hitems =>
      rw [saved, savedAll_eq]
      refine .list ?_
      simp only [List.mem_map]
      rintro _ ⟨v, hv, rfl⟩
      rcases hitems v hv with h | ⟨d, rfl | rfl⟩
      · rw [h.saved_eq]
        exact h
      · exact hdimension d
      · exact hdimension d

variable {name : String} {v : Value}

theorem Suits.exists_bounds {b : Bounds} (hv : v.Suits "bounds") (h : Bounds.ofValue v = .ok b) :
    ∃ b', Bounds.ofValue v.saved = .ok b' ∧ b'.canonical = b.canonical := by
  cases hv with
  | plain hv =>
      rw [hv.saved_eq]
      exact ⟨b, h, rfl⟩
  | reference => exact ⟨b, h, rfl⟩
  | bounds _ given =>
      cases h
      exact ⟨b.canonical, Bounds.read_text b, Bounds.canonical_canonical b⟩
  | mode _ m => exact absurd (Bounds.mem_of_read h) (by cases m <;> decide)
  | dimensionId _ d => exact absurd (Bounds.mem_of_read h) (by cases d <;> decide)
  | dimension _ d => exact absurd (Bounds.mem_of_read h) (by cases d <;> decide)
  | dimensions hname => exact absurd List.mem_cons_self hname

theorem Suits.int_saved {n : Int} (hv : v.Suits name) (h : v.int = .ok n) :
    v.saved.int = .ok n := by
  cases hv with
  | plain hv => rwa [hv.saved_eq]
  | _ => cases h

theorem Suits.totalOf_saved {n : Nat} (hv : v.Suits name) (h : Generator.totalOf v = .ok n) :
    Generator.totalOf v.saved = .ok n := by
  obtain ⟨m, hm, h⟩ := exists_of_bind_eq_ok h
  unfold Generator.totalOf
  rw [hv.int_saved hm]
  exact h

theorem Suits.mode_saved {m : Mode} (hv : v.Suits name) (h : Mode.ofValue v = .ok m) :
    Mode.ofValue v.saved = .ok m := by
  cases hv with
  | plain hv => rwa [hv.saved_eq]
  | reference =>
      have hread := Mode.ofText?_of_ofValue h nofun
      rw [saved]
      exact Mode.ofValue_text hread
  | mode _ given =>
      cases h
      rw [saved]
      exact Mode.ofValue_text (Mode.ofText?_name m)
  | bounds _ b =>
      have hread := Mode.ofText?_of_ofValue h nofun
      exact absurd b.mem_describe (Mode.not_mem_of_ofText? hread (by decide))
  | dimensionId _ d =>
      have hread := Mode.ofText?_of_ofValue h nofun
      exact absurd (mem_text_dimensionId d) (Mode.not_mem_of_ofText? hread (by decide))
  | dimension _ d =>
      have hread := Mode.ofText?_of_ofValue h nofun
      exact absurd d.mem_describe (Mode.not_mem_of_ofText? hread (by decide))
  | dimensions =>
      have hread := Mode.ofText?_of_ofValue h nofun
      exact absurd (Text.mem_bracketed _) (Mode.not_mem_of_ofText? hread (by decide))

theorem ofItem_saved (h : v.IsPlain ∨ ∃ d, v = .dimensionId d ∨ v = .dimension d) :
    Dimension.ofItem v.saved = Dimension.ofItem v := by
  rcases h with h | ⟨d, rfl | rfl⟩
  · rw [h.saved_eq]
  · rw [saved]
    exact Dimension.ofKey_id d
  · rw [saved]
    exact Dimension.ofKey_id d

theorem mapM_ofItem_saved {items : List Value}
    (h : ∀ v ∈ items, v.IsPlain ∨ ∃ d, v = .dimensionId d ∨ v = .dimension d) :
    (items.map saved).mapM Dimension.ofItem = items.mapM Dimension.ofItem := by
  induction items with
  | nil => rfl
  | cons v items ih =>
      rw [List.map_cons, List.mapM_cons, List.mapM_cons, ofItem_saved (h v List.mem_cons_self),
        ih fun w hw => h w (List.mem_cons_of_mem v hw)]

theorem Suits.schema_saved {s : Schema} (hv : v.Suits name)
    (h : Schema.ofOption (some v) = .ok s) : Schema.ofOption (some v.saved) = .ok s := by
  cases hv with
  | plain hv => rwa [hv.saved_eq]
  | dimensions _ hitems =>
      unfold Schema.ofOption at h ⊢
      rw [saved, savedAll_eq]
      simp only [items?, mapM_ofItem_saved hitems] at h ⊢
      exact h
  | _ => cases h

theorem Suits.seedOf_saved {drawn seed : Nat} (hv : v.Suits name)
    (h : Generator.seedOf drawn (some v) = .ok seed) :
    Generator.seedOf drawn (some v.saved) = .ok seed := by
  cases hv with
  | plain hv => rwa [hv.saved_eq]
  | _ => cases h

theorem Suits.reference_saved (hv : v.Suits name) (hname : name ∈ Options.referenceNames) :
    SpatialReference.ofValue v.saved = SpatialReference.ofValue v := by
  cases hv with
  | plain hv => rw [hv.saved_eq]
  | reference _ htrim => exact congrArg SpatialReference.mk (htrim hname)
  | dimensions h => exact absurd (List.mem_cons_of_mem _ hname) h
  | bounds h | mode h | dimensionId h | dimension h => exact absurd hname h

end Value

namespace Options

variable {options : Options}

theorem get?_saved (options : Options) (key : String) :
    options.saved.get? key = (options.get? key).map Value.saved := by
  unfold get? saved
  rw [List.find?_map, Option.map_map, Option.map_map]
  rfl

theorem given?_saved (options : Options) (name : String) :
    options.saved.given? name = (options.given? name).map Value.saved := by
  unfold given?
  rw [get?_saved]
  rcases options.get? name with _ | v
  · rfl
  · cases v <;> rfl

theorem withParameters_saved (options : Options) (parameters : List String) :
    options.saved.withParameters parameters = (options.withParameters parameters).saved := by
  rw [withParameters_eq, withParameters_eq]
  unfold saved
  rw [List.map_append, List.filter_map, List.map_filterMap]
  congr 1
  apply List.filterMap_congr
  intro name _
  have hgiven := given?_saved options name
  unfold saved at hgiven
  rw [hgiven, Option.map_map, Option.map_map]
  rfl

theorem require_eq_ok {key : String} {e : Failure} {v : Value} :
    options.require key e = .ok v ↔ options.get? key = some v := by
  unfold require
  cases options.get? key <;> simp

theorem map_fst_saved (options : Options) : options.saved.map Prod.fst = options.map Prod.fst := by
  unfold saved
  rw [List.map_map]
  rfl

/-- Options that are given each in a form that its parameter takes. -/
def Suit (options : Options) : Prop :=
  ∀ option ∈ options, option.2.Suits option.1

theorem Suit.withParameters (hsuit : options.Suit) (parameters : List String) :
    (options.withParameters parameters).Suit :=
  fun option hmem => hsuit option (mem_of_mem_withParameters hmem)

theorem Suit.get? {key : String} {v : Value} (hsuit : options.Suit)
    (h : options.get? key = some v) : v.Suits key :=
  hsuit _ (mem_of_get? h)

theorem Suit.get?_saved_eq_ok {α : Type} {key : String} {f : Option Value → Except Failure α}
    {a : α} (hsuit : options.Suit)
    (hf : ∀ v, v.Suits key → f (some v) = .ok a → f (some v.saved) = .ok a)
    (h : f (options.get? key) = .ok a) : f (options.saved.get? key) = .ok a := by
  rw [get?_saved]
  cases hget : options.get? key with
  | none => rwa [hget] at h
  | some v =>
      rw [hget] at h
      exact hf v (hsuit.get? hget) h

theorem require_saved {key : String} {e : Failure} {v : Value}
    (h : options.require key e = .ok v) : options.saved.require key e = .ok v.saved := by
  rw [require_eq_ok] at h ⊢
  rw [get?_saved, h]
  rfl

theorem Suit.reference_saved {key : String} (hsuit : options.Suit) (hkey : key ∈ referenceNames) :
    options.saved.reference key = options.reference key := by
  unfold reference
  rw [get?_saved]
  cases hget : options.get? key with
  | none => rfl
  | some v => exact (hsuit.get? hget).reference_saved hkey

end Options

theorem Generator.exists_ofOptions_saved {drawn : Nat} {options : Options} {g : Generator}
    (hsuit : options.Suit) (h : ofOptions drawn options = .ok g) :
    ∃ bounds, ofOptions drawn options.saved = .ok { g with bounds := bounds } ∧
      bounds.canonical = g.bounds.canonical := by
  obtain ⟨box, hbox, h⟩ := exists_of_bind_eq_ok h
  obtain ⟨points, hpoints, h⟩ := exists_of_bind_eq_ok h
  obtain ⟨bounds, hbounds, h⟩ := exists_of_bind_eq_ok h
  obtain ⟨total, htotal, h⟩ := exists_of_bind_eq_ok h
  obtain ⟨mode, hmode, h⟩ := exists_of_bind_eq_ok h
  obtain ⟨schema, hschema, h⟩ := exists_of_bind_eq_ok h
  obtain ⟨seed, hseed, h⟩ := exists_of_bind_eq_ok h
  cases h
  have hbox' := hsuit.get? (Options.require_eq_ok.mp hbox)
  have hpoints' := hsuit.get? (Options.require_eq_ok.mp hpoints)
  obtain ⟨bounds', hbounds', hcanonical⟩ := hbox'.exists_bounds hbounds
  have hmode' := hsuit.get?_saved_eq_ok (f := fun v? => Mode.ofValue (v?.getD (.mode .random)))
    (fun v hv => hv.mode_saved) hmode
  have hschema' := hsuit.get?_saved_eq_ok (fun v hv => hv.schema_saved) hschema
  have hseed' := hsuit.get?_saved_eq_ok (fun v hv => hv.seedOf_saved) hseed
  refine ⟨bounds', ?_, hcanonical⟩
  simp only [ofOptions, Options.require_saved hbox, Options.require_saved hpoints, hbounds',
    hpoints'.totalOf_saved htotal, hmode', hschema', hseed', bind, Except.bind]
  rfl

theorem Reprojection.ofOptions_saved {options : Options} {r : Reprojection}
    (hsuit : options.Suit) (h : ofOptions options = .ok r) : ofOptions options.saved = .ok r := by
  obtain ⟨output, houtput, h⟩ := exists_of_bind_eq_ok h
  cases h
  have hsuits := hsuit.get? (Options.require_eq_ok.mp houtput)
  have hinput : ((options.get? "in_srs").map Value.saved).map SpatialReference.ofValue =
      (options.get? "in_srs").map SpatialReference.ofValue := by
    cases hget : options.get? "in_srs" with
    | none => rfl
    | some v => exact congrArg some ((hsuit.get? hget).reference_saved (by decide))
  simp only [ofOptions, Options.require_saved houtput, Options.get?_saved, hinput,
    hsuits.reference_saved (by decide), bind, Except.bind]
  rfl

namespace Stage

theorem checkNames_saved {reserved : List String} {arguments : Options}
    (h : checkNames reserved arguments = .ok ()) :
    checkNames reserved arguments.saved = .ok () := by
  rw [checkNames_eq_ok] at h ⊢
  intro argument hmem
  obtain ⟨given, hgiven, rfl⟩ := List.mem_map.mp hmem
  exact h given hgiven

theorem Defines.isSome_configuration? {arguments : Options} {previous? : Option Stage} {s : Stage}
    (h : Defines arguments previous? s) : s.configuration?.isSome = true := by
  cases h with
  | source => rfl
  | filter => rfl

/-- What arguments are saved as defines a stage that is set up in the same way, and that has the
options which the stage of the arguments is saved with. -/
theorem Defines.exists_saved {arguments : Options} {previous? : Option Stage} {s : Stage}
    (h : Defines arguments previous? s) (hsuit : arguments.Suit) :
    ∃ s', Defines arguments.saved previous? s' ∧ s'.typeName = s.typeName ∧
      s'.options = s.options.saved ∧ s'.configuration? = s.configuration? := by
  cases h with
  | @source number drawn g hg =>
      have hsuit := hsuit.withParameters Generator.parameters
      obtain ⟨bounds, hsaved, hbounds⟩ := Generator.exists_ofOptions_saved hsuit hg
      rw [← Options.withParameters_saved] at hsaved
      refine ⟨_, .source number drawn hsaved, rfl, Options.withParameters_saved .., ?_⟩
      have hreference : Options.reference _ "spatialreference" = _ :=
        hsuit.reference_saved (by decide)
      simp only [configuration?, hbounds, Options.withParameters_saved, hreference]
  | filter number previous hprevious hr =>
      have hsaved := Reprojection.ofOptions_saved (hsuit.withParameters _) hr
      rw [← Options.withParameters_saved] at hsaved
      refine ⟨_, .filter number previous ?_ hsaved, rfl, Options.withParameters_saved .., rfl⟩
      rw [Options.get?_saved, hprevious]
      rfl

end Stage

end PointStream

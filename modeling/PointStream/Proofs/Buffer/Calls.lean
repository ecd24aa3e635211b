import PointStream.Proofs.Buffer.Fields

namespace PointStream

namespace Buffer

/-- A call on a buffer: to read a field, to store a value in one, or to set the count of points. -/
inductive Call where
  | load (point index type : Value)
  | store (point index value type : Value)
  | resize (count : Value)

/-- The buffer that a call makes, or why it is refused. -/
def change (b : Buffer) : Call → Except Failure Buffer
  | .load point index type => (b.getField point index type).map fun _ => b
  | .store point index value type => b.setField point index value type
  | .resize count => count.number.bind b.setCount

/-- The buffer after a call. A call that is refused leaves it as it was. -/
def after (b : Buffer) (c : Call) : Buffer :=
  match b.change c with
  | .ok b' => b'
  | .error _ => b

def afterAll (b : Buffer) (calls : List Call) : Buffer :=
  calls.foldl after b

namespace Call

/-- The value that a call stores in a row of a dimension, if it stores one there. -/
def stored? (s : Schema) (capacity row : Nat) (d : Dimension) : Call → Option Value
  | .store point index value type =>
    if point.marks capacity row = true ∧ s.named? index type = some d then some value else none
  | _ => none

/-- The value that calls store last in a row of a dimension. -/
def last? (s : Schema) (capacity : Nat) (calls : List Call) (row : Nat) (d : Dimension) :
    Option Value :=
  (calls.filterMap (stored? s capacity row d)).getLast?

/-- Whether a call stores nothing but values of the dimension that it names. -/
def Fits (s : Schema) : Call → Prop
  | .store _ index value type => ∀ d, s.named? index type = some d → d.storage.Represents value
  | _ => True

theorem fits_of_whole {s : Schema} {point index type : Value} {n : Int}
    (h : (s.named? index type).all (fun d => decide (d.storage ≠ .float64 ∧
      d.storage.lowest ≤ n ∧ n < d.storage.lowest + d.storage.modulus)) = true) :
    (store point index (.whole n) type).Fits s := by
  intro d hd
  rw [hd, Option.all_some, decide_eq_true_eq] at h
  exact ⟨.whole n, h, .whole n, rfl, Number.same_whole_iff.mpr rfl⟩

theorem last?_append_singleton (s : Schema) (capacity : Nat) (calls : List Call) (c : Call)
    (row : Nat) (d : Dimension) :
    last? s capacity (calls ++ [c]) row d =
      (c.stored? s capacity row d).or (last? s capacity calls row d) := by
  simp only [last?, List.filterMap_append, List.getLast?_append]
  cases hc : c.stored? s capacity row d <;> simp [hc]

end Call

/-- Every cell of a buffer shows the value that was stored in it last. -/
def Holds (b : Buffer) (last : Nat → Dimension → Option Value) : Prop :=
  ∀ row (d : Dimension), d.storage.Shows (d.storage.read (b.word d row)) (last row d)

/-- A whole point index, a whole dimension index and a type that lead to the field of a row and a
dimension. -/
structure Addresses (b : Buffer) (i j : Int) (type : Value) (row : Nat) (d : Dimension) :
    Prop where
  point : i = row
  capacity : row < b.capacity
  dimension : b.schema.dimensionAt? j = some d
  type : d.storage.isAskedFor type = true

/-- Why the indices and the type of a field are refused. The point index is looked at first, and the
type last. -/
inductive Refuses (b : Buffer) (i j : Int) (type : Value) : Failure → Prop
  | point (h : i < 0 ∨ b.capacity ≤ i) : Refuses b i j type (.pointIndex (.whole i) b.capacity)
  | dimension (h : 0 ≤ i ∧ i < b.capacity) (hnone : b.schema.dimensionAt? j = none) :
      Refuses b i j type .noSuchIndex
  | type {d : Dimension} {e : Failure} (h : 0 ≤ i ∧ i < b.capacity)
      (hd : b.schema.dimensionAt? j = some d) (he : checkType (.whole j) d type = .error e) :
      Refuses b i j type e

/-- What storing a value in a field makes of a buffer. -/
structure Stores (b b' : Buffer) (row : Nat) (d : Dimension) (v : Value) : Prop where
  layout : b'.layout = b.layout
  capacity : b'.capacity = b.capacity
  count : b'.count = b.count
  field : ∀ {i j type}, b.Addresses i j type row d →
    ∃ x, b'.getField (.whole i) (.whole j) type = .ok (d, .one x) ∧ d.storage.Shows x (some v)
  others : ∀ {i j type row' d'}, b.Addresses i j type row' d' → ¬(row' = row ∧ d' = d) →
    b'.getField (.whole i) (.whole j) type = b.getField (.whole i) (.whole j) type
  bytes : ∀ {j offset k}, b.schema.dimensionAt? j = some d → b.schema.offsetAt? j = some offset →
    k < row * b.schema.byteSize + offset ∨ row * b.schema.byteSize + offset + d.width ≤ k →
      b'.bytes[k]? = b.bytes[k]?

/-- A buffer that answers for the values that were stored last. -/
structure Faithful (b : Buffer) (last : Nat → Dimension → Option Value) : Prop where
  count_le : b.count ≤ b.capacity
  addressed : ∀ i j type, (∃ row d, b.Addresses i j type row d) ∨ ∃ e, b.Refuses i j type e
  load : ∀ {i j type row d}, b.Addresses i j type row d →
    ∃ x, b.getField (.whole i) (.whole j) type = .ok (d, .one x) ∧ d.storage.Shows x (last row d)
  store : ∀ {i j type row d v}, b.Addresses i j type row d → d.storage.Represents v →
    ∃ b', b.setField (.whole i) (.whole j) v type = .ok b' ∧ b.Stores b' row d v
  load_refused : ∀ {i j type e}, b.Refuses i j type e →
    b.getField (.whole i) (.whole j) type = .error e
  store_refused : ∀ {i j type e}, b.Refuses i j type e →
    ∀ v, b.setField (.whole i) (.whole j) v type = .error e
  resize : ∀ {n : Nat} (h : n ≤ b.capacity), b.setCount (.whole n) = .ok (b.withCount n h)
  resize_refused : ∀ {n : Int}, n < 0 ∨ b.capacity < n →
    b.setCount (.whole n) = .error (.pointCount (.whole n) b.capacity)
  unchanged : ∀ {c e}, b.change c = .error e → b.after c = b
  length_bytes : b.bytes.length = b.count * b.schema.byteSize
  bytes : ∀ {j row d}, row < b.count → b.schema.dimensionAt? j = some d →
    ∃ offset x, b.schema.offsetAt? j = some offset ∧
      b.getField (.whole row) (.whole j) .null = .ok (d, .one x) ∧
      d.storage.IsEncoding x
        ((b.bytes.drop (row * b.schema.byteSize + offset)).take d.width)

variable {b b' : Buffer} {last : Nat → Dimension → Option Value} {i j : Int} {type : Value}
  {row : Nat} {d : Dimension} {e : Failure}

theorem after_of_ok {c : Call} (h : b.change c = .ok b') : b.after c = b' := by
  simp only [after, h]

theorem after_of_error {c : Call} (h : b.change c = .error e) : b.after c = b := by
  simp only [after, h]

theorem field_of_addresses (h : b.Addresses i j type row d) :
    ∃ column, b.field (.whole i) (.whole j) type = .ok ⟨column, .row row, d⟩ ∧
      b.schema.columnOf? d = some column := by
  obtain ⟨column, hcolumn, hd⟩ := columnAt_of_dimensionAt? h.dimension
  refine ⟨column, field_eq_ok_iff.mpr ⟨.whole i, j, rfl, ?_, rfl, hcolumn, h.type, ?_⟩,
    Schema.columnOf?_eq_some_iff.mpr hd⟩
  · have hlt := h.capacity
    simp [inRange, h.point, hlt]
  · simp [select, h.point]

theorem getField_of_addresses (h : b.Addresses i j type row d) :
    b.getField (.whole i) (.whole j) type =
      .ok (d, .one (d.storage.read (b.word d row))) := by
  obtain ⟨column, hfield, hcolumn⟩ := field_of_addresses h
  rw [word_eq_cell hcolumn]
  simp [getField, hfield, bind, Except.bind, pure, Except.pure]

theorem field_of_refuses (h : b.Refuses i j type e) :
    b.field (.whole i) (.whole j) type = .error e := by
  have hnumber : (Value.whole i).number = .ok (.whole i) := rfl
  have hindex : indexOf (.whole j) = .ok j := rfl
  cases h with
  | point h =>
      have hrange : ¬(0 ≤ i ∧ i < b.capacity) := by omega
      simp [field, hnumber, hrange, bind, Except.bind, throw, throwThe, MonadExceptOf.throw]
  | dimension h hnone =>
      simp [field, hnumber, hindex, h, columnAt_of_none hnone, bind, Except.bind]
  | type h hd he =>
      obtain ⟨column, hcolumn, _⟩ := columnAt_of_dimensionAt? hd
      simp [field, hnumber, hindex, h, hcolumn, he, Value.number?, bind, Except.bind]

theorem addresses_or_refuses (b : Buffer) (i j : Int) (type : Value) :
    (∃ row d, b.Addresses i j type row d) ∨ ∃ e, b.Refuses i j type e := by
  by_cases hi : 0 ≤ i ∧ i < b.capacity
  · cases hd : b.schema.dimensionAt? j with
    | none => exact .inr ⟨_, .dimension hi hd⟩
    | some d =>
        cases htype : checkType (.whole j) d type with
        | error e => exact .inr ⟨e, .type hi hd htype⟩
        | ok _ =>
            exact .inl ⟨i.toNat, d, by omega, by omega, hd, checkType_eq_ok_iff.mp htype⟩
  · exact .inr ⟨_, .point (by omega)⟩

theorem getField_of_refuses (h : b.Refuses i j type e) :
    b.getField (.whole i) (.whole j) type = .error e := by
  simp only [getField, field_of_refuses h, bind, Except.bind]

theorem setField_of_refuses (h : b.Refuses i j type e) (v : Value) :
    b.setField (.whole i) (.whole j) v type = .error e := by
  simp only [setField, field_of_refuses h, bind, Except.bind]

theorem number?_of_represents {s : Storage} {v : Value} (h : s.Represents v) :
    ∃ n, v.number? = some n := by
  obtain ⟨x, _, hv⟩ := h
  cases x with
  | whole n =>
      obtain ⟨m, hm, _⟩ := hv
      exact ⟨m, hm⟩
  | real x =>
      cases v with
      | real y => exact ⟨_, rfl⟩
      | _ =>
          obtain ⟨m, hm, _⟩ := hv
          exact ⟨m, hm⟩

theorem overlays_of_represents {point index v : Value} {f : Field}
    (hf : b.field point index type = .ok f) (hv : f.dimension.storage.Represents v) :
    ∃ w b', b.setField point index v type = .ok b' ∧ b'.count = b.count ∧
      f.dimension.storage.Shows (f.dimension.storage.read w) (some v) ∧
      Overlays b b' fun row d =>
        if d = f.dimension ∧ f.selection.covers b.capacity row = true then some w else none := by
  obtain ⟨n, hn⟩ := number?_of_represents hv
  obtain ⟨w, hw, hread⟩ := Storage.exists_write hv
  obtain ⟨b', hset, hcount, hoverlays⟩ := overlays_setField hf hn hw
  exact ⟨w, b', hset, hcount, ⟨Storage.has_read _ w, hread⟩, hoverlays⟩

theorem Addresses.of_overlays {f : Nat → Dimension → Option UInt64} (hoverlays : Overlays b b' f)
    (h : b.Addresses i j type row d) : b'.Addresses i j type row d :=
  ⟨h.point, hoverlays.capacity ▸ h.capacity, hoverlays.schema ▸ h.dimension, h.type⟩

theorem exists_stores {v : Value} (h : b.Addresses i j type row d)
    (hv : d.storage.Represents v) :
    ∃ b', b.setField (.whole i) (.whole j) v type = .ok b' ∧ b.Stores b' row d v := by
  obtain ⟨column, hfield, hcolumn⟩ := field_of_addresses h
  obtain ⟨w, b', hset, hcount, hshows, hoverlays⟩ := overlays_of_represents hfield hv
  have hother : ∀ (e : Dimension) k, ¬(k = row ∧ e = d) → b'.word e k = b.word e k := by
    intro e k hne
    apply hoverlays.word_of_eq_none
    rw [if_neg]
    simp only [Selection.covers, beq_iff_eq]
    exact fun hed => hne ⟨hed.2, hed.1⟩
  refine ⟨b', hset, hoverlays.layout, hoverlays.capacity, hcount, ?_, ?_, ?_⟩
  · intro i j type h
    refine ⟨_, getField_of_addresses (h.of_overlays hoverlays), ?_⟩
    rw [hoverlays.word d (Schema.has_of_columnOf? hcolumn), if_pos (by simp [Selection.covers]),
      Option.getD_some]
    exact hshows
  · intro i j type row' d' h hne
    rw [getField_of_addresses (h.of_overlays hoverlays), getField_of_addresses h,
      hother d' row' hne]
  · intro j offset k hd hoffset hk
    obtain ⟨column', _, hd', hoffset'⟩ := exists_column_of_dimensionAt? hd
    rw [hoffset] at hoffset'
    cases hoffset'
    exact getElem?_bytes_congr hoverlays.layout hcount hd' hother hk

theorem setCount_natCast {n : Nat} (h : n ≤ b.capacity) :
    b.setCount (.whole n) = .ok (b.withCount n h) := by
  simp [setCount, Number.toInt, h]

theorem setCount_refused {n : Int} (h : n < 0 ∨ b.capacity < n) :
    b.setCount (.whole n) = .error (.pointCount (.whole n) b.capacity) := by
  have hrange : ¬(0 ≤ n ∧ n ≤ b.capacity) := by omega
  simp [setCount, hrange]

theorem exists_encoding (hrow : row < b.count) (hd : b.schema.dimensionAt? j = some d) :
    ∃ offset x, b.schema.offsetAt? j = some offset ∧
      b.getField (.whole row) (.whole j) .null = .ok (d, .one x) ∧
      d.storage.IsEncoding x
        ((b.bytes.drop (row * b.schema.byteSize + offset)).take d.width) := by
  obtain ⟨column, _, hat, hoffset⟩ := exists_column_of_dimensionAt? hd
  have haddresses : b.Addresses row j .null row d :=
    ⟨rfl, Nat.lt_of_lt_of_le hrow b.count_le, hd, rfl⟩
  refine ⟨_, _, hoffset, getField_of_addresses haddresses, ?_⟩
  rw [take_drop_bytes hrow hat]
  exact Storage.isEncoding_bytes ..

theorem faithful_of_holds (h : b.Holds last) : b.Faithful last where
  count_le := b.count_le
  addressed := b.addresses_or_refuses
  load haddresses := ⟨_, getField_of_addresses haddresses, h _ _⟩
  store := exists_stores
  load_refused := getField_of_refuses
  store_refused := setField_of_refuses
  resize := setCount_natCast
  resize_refused := setCount_refused
  unchanged := after_of_error
  length_bytes := b.length_bytes
  bytes := exists_encoding

theorem setCount_eq_ok {n : Number} (h : b.setCount n = .ok b') :
    ∃ k hk, b' = b.withCount k hk := by
  unfold setCount at h
  split at h
  · split at h
    · cases h
    · split at h
      · next hk =>
        cases h
        exact ⟨_, hk, rfl⟩
      · cases h
  · cases h

theorem stored?_of_error {point index v : Value} (h : b.field point index type = .error e)
    (row : Nat) (d : Dimension) :
    (Call.store point index v type).stored? b.schema b.capacity row d = none := by
  apply if_neg
  rintro ⟨hmarks, hd⟩
  obtain ⟨f, hf, _⟩ := exists_field hmarks hd
  rw [h] at hf
  cases hf

theorem stored?_of_field {point index v : Value} {f : Field}
    (h : b.field point index type = .ok f) (row : Nat) (d : Dimension) :
    (Call.store point index v type).stored? b.schema b.capacity row d =
      if d = f.dimension ∧ f.selection.covers b.capacity row = true then some v else none := by
  obtain ⟨hnamed, _, hmarks⟩ := named?_of_field h
  simp only [Call.stored?, hmarks, hnamed, Option.some.injEq]
  exact if_congr ⟨fun h => ⟨h.2.symm, h.1⟩, fun h => ⟨h.2, h.1.symm⟩⟩ rfl rfl

theorem Holds.setField (h : b.Holds last) {point index v : Value} {f : Field}
    (hf : b.field point index type = .ok f) (hv : f.dimension.storage.Represents v) :
    ∃ b', b.setField point index v type = .ok b' ∧ b'.layout = b.layout ∧
      b'.capacity = b.capacity ∧ b'.Holds fun row d =>
        ((Call.store point index v type).stored? b.schema b.capacity row d).or (last row d) := by
  obtain ⟨_, hcolumn, _⟩ := named?_of_field hf
  obtain ⟨w, b', hset, _, hshows, hoverlays⟩ := overlays_of_represents hf hv
  refine ⟨b', hset, hoverlays.layout, hoverlays.capacity, ?_⟩
  intro row d
  simp only [stored?_of_field hf]
  by_cases hcell : d = f.dimension ∧ f.selection.covers b.capacity row = true
  · obtain ⟨rfl, hcovers⟩ := hcell
    rw [hoverlays.word _ (Schema.has_of_columnOf? hcolumn), if_pos ⟨rfl, hcovers⟩,
      if_pos ⟨rfl, hcovers⟩]
    exact hshows
  · rw [hoverlays.word_of_eq_none (if_neg hcell), if_neg hcell]
    exact h row d

theorem Holds.after (h : b.Holds last) {c : Call} (hc : c.Fits b.schema) :
    (b.after c).layout = b.layout ∧ (b.after c).capacity = b.capacity ∧
      (b.after c).Holds fun row d =>
        (c.stored? b.schema b.capacity row d).or (last row d) := by
  cases c with
  | load point index type =>
      have hsame : b.after (.load point index type) = b := by
        simp only [Buffer.after, change]
        cases b.getField point index type <;> rfl
      rw [hsame]
      exact ⟨rfl, rfl, h⟩
  | resize count =>
      cases hchange : b.change (.resize count) with
      | error e =>
          rw [after_of_error hchange]
          exact ⟨rfl, rfl, h⟩
      | ok b' =>
          obtain ⟨n, _, hn⟩ := exists_of_bind_eq_ok hchange
          obtain ⟨k, hk, rfl⟩ := setCount_eq_ok hn
          rw [after_of_ok hchange]
          exact ⟨rfl, rfl, h⟩
  | store point index v type =>
      cases hfield : b.field point index type with
      | error e =>
          have hchange : b.change (.store point index v type) = .error e := by
            simp only [change, Buffer.setField, hfield, bind, Except.bind]
          rw [after_of_error hchange]
          refine ⟨rfl, rfl, ?_⟩
          intro row d
          simp only [stored?_of_error hfield, Option.none_or]
          exact h row d
      | ok f =>
          have hv := hc _ (named?_of_field hfield).1
          obtain ⟨b', hset, hlayout, hcapacity, hholds⟩ := h.setField hfield hv
          have hchange : b.change (.store point index v type) = .ok b' := hset
          rw [after_of_ok hchange]
          exact ⟨hlayout, hcapacity, hholds⟩

/-- A row of calls: a cell shows the last of the values that they store in it. -/
theorem Holds.afterAll (h : b.Holds fun _ _ => none) {calls : List Call}
    (hcalls : ∀ c ∈ calls, c.Fits b.schema) :
    (b.afterAll calls).layout = b.layout ∧ (b.afterAll calls).capacity = b.capacity ∧
      (b.afterAll calls).Holds (Call.last? b.schema b.capacity calls) := by
  -- The last call is taken off: what it stores is what counts, and the calls before it come second.
  induction calls using List.reverseRecOn with
  | nil => exact ⟨rfl, rfl, h⟩
  | append_singleton calls c ih =>
      obtain ⟨hlayout, hcapacity, hholds⟩ :=
        ih fun c' hc' => hcalls c' (List.mem_append_left _ hc')
      have hschema : (b.afterAll calls).schema = b.schema := congrArg Layout.schema hlayout
      have hc : c.Fits (b.afterAll calls).schema :=
        hschema ▸ hcalls c (List.mem_append_right _ (List.mem_singleton_self c))
      have hlast : b.afterAll (calls ++ [c]) = (b.afterAll calls).after c :=
        List.foldl_append ..
      obtain ⟨hlayout', hcapacity', hholds'⟩ := hholds.after hc
      rw [hlast]
      refine ⟨hlayout'.trans hlayout, hcapacity'.trans hcapacity, ?_⟩
      intro row d
      have hshows := hholds' row d
      simp only [hschema, hcapacity, ← Call.last?_append_singleton] at hshows
      exact hshows

theorem holds_blank (layout : Layout) (capacity : Nat) :
    (blank layout capacity).Holds fun _ _ => none := by
  intro row d
  rw [word_blank]
  cases h : d.storage <;> rfl

theorem make_eq_ok {layout : Layout} {n : Number} (h : make layout n = .ok b) :
    ∃ k : Nat, n.toInt = .ok k ∧ b = blank layout k := by
  unfold make at h
  split at h
  · cases h
  · next hlt =>
    split at h
    · cases h
    · next k hk =>
      split at h
      · cases h
      · cases h
        have hnonneg := n.nonneg_of_toInt hlt hk
        exact ⟨k.toNat, by rw [hk, Int.toNat_of_nonneg hnonneg], rfl⟩

/-- A buffer answers for the values that were stored last by any calls, of which some may have been
refused. -/
theorem faithful_afterAll {layout : Layout} {n : Number} (hmake : make layout n = .ok b)
    {calls : List Call} (hcalls : ∀ c ∈ calls, c.Fits layout.schema) :
    n.toInt = .ok b.capacity ∧ (b.afterAll calls).layout = layout ∧
      (b.afterAll calls).capacity = b.capacity ∧
      (b.afterAll calls).Faithful (Call.last? layout.schema b.capacity calls) := by
  obtain ⟨k, hk, rfl⟩ := make_eq_ok hmake
  obtain ⟨hlayout, hcapacity, hholds⟩ := (holds_blank layout k).afterAll hcalls
  exact ⟨hk, hlayout, hcapacity, faithful_of_holds hholds⟩

/-- On dimensions of three widths: a place that counts from the end, a field that is stored over, and
calls that are refused. -/
theorem faithful_after_mixed_calls :
    let layout : Layout :=
      ⟨⟨[.redU8, .xF64, .scanAngleRankI8, .intensityU16], by decide⟩, .free 0⟩
    let calls : List Call :=
      [.store (.whole 1) (.whole 0) (.whole 255) .null,
        .store (.whole 1) (.whole (-1)) (.whole 65535) (.text "uint16"),
        .store (.whole 3) (.whole 0) (.whole 7) .null,
        .store (.whole 2) (.whole 4) (.whole 7) .null,
        .store (.whole 1) (.whole 2) (.whole (-128)) (.text "uint8"),
        .store (.whole 1) (.whole 0) (.whole 9) .null,
        .resize (.whole 4),
        .load (.whole 0) (.whole 1) .null,
        .resize (.whole 2)]
    let b := blank layout 3
    make layout (.whole 3) = .ok b ∧ (∀ c ∈ calls, c.Fits layout.schema) ∧
      Call.last? layout.schema 3 calls 1 .redU8 = some (.whole 9) ∧
      Call.last? layout.schema 3 calls 1 .intensityU16 = some (.whole 65535) ∧
      Call.last? layout.schema 3 calls 1 .scanAngleRankI8 = none ∧
      (b.afterAll calls).Faithful (Call.last? layout.schema b.capacity calls) := by
  intro layout calls b
  have hmake : make layout (.whole 3) = .ok b := rfl
  have hred : layout.schema.named? (.whole 0) .null = some .redU8 := by decide
  have hintensity :
      layout.schema.named? (.whole (-1)) (.text "uint16") = some .intensityU16 := by
    decide +kernel
  have hbeyond : layout.schema.named? (.whole 4) .null = none := by decide
  have hrank : layout.schema.named? (.whole 2) (.text "uint8") = none := by decide +kernel
  have hfits : ∀ c ∈ calls, c.Fits layout.schema := by
    simp only [calls, List.forall_mem_cons]
    refine ⟨Call.fits_of_whole ?_, Call.fits_of_whole ?_, Call.fits_of_whole ?_,
      Call.fits_of_whole ?_, Call.fits_of_whole ?_, Call.fits_of_whole ?_,
      trivial, trivial, trivial, List.forall_mem_nil _⟩
    all_goals simp only [hred, hintensity, hbeyond, hrank]; decide
  refine ⟨hmake, hfits, ?_, ?_, ?_, (faithful_afterAll hmake hfits).2.2.2⟩
  all_goals
    simp [calls, Call.last?, Call.stored?, List.filterMap_cons, Value.marks, hred, hintensity, hbeyond,
      hrank]

end Buffer

end PointStream

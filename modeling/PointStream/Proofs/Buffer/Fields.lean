import PointStream.Proofs.Buffer.Bytes
import PointStream.Proofs.Buffer.Values
import PointStream.Proofs.Failure

namespace PointStream

/-- Whether a value asks for a field as one of a storage type: by no type, or by that one. -/
def Storage.isAskedFor (s : Storage) : Value → Bool
  | .null => true
  | .text t => ElementType.ofText? t == some (.ofStorage s)
  | _ => false

/-- The dimension that an index names, if it may be asked for as one of a type. -/
def Schema.named? (s : Schema) (index type : Value) : Option Dimension :=
  match Buffer.indexOf index with
  | .error _ => none
  | .ok place => (s.dimensionAt? place).filter fun d => d.storage.isAskedFor type

/-- Whether a point index stands for a row within the capacity. A whole number stands for the row of
that number, and truth for every row. -/
def Value.marks (capacity row : Nat) : Value → Bool
  | .whole i => i == (row : Int) && decide (row < capacity)
  | .truth t => t && decide (1 < capacity) && decide (row < capacity)
  | _ => false

/-- What a cell shows once a value was stored in it, or before any was. -/
def Storage.Shows (s : Storage) (x : Scalar) : Option Value → Prop
  | some v => s.Has x ∧ x.Is v
  | none => x = s.zero

namespace Buffer

variable {b b' : Buffer} {point index type v : Value} {i j : Int} {row : Nat} {d : Dimension}
  {e : Failure}

/-- Whether a row is one of a selection. -/
def Selection.covers (capacity row : Nat) : Selection → Bool
  | .row n => row == n
  | .all => decide (row < capacity)
  | .nothing => false

theorem exists_column_of_dimensionAt? (h : b.schema.dimensionAt? j = some d) :
    ∃ column, placeOfIndex? b.schema.size j = some column ∧
      b.schema.dimensions[column]? = some d ∧
      b.schema.offsetAt? j = some (b.schema.offset column) := by
  obtain ⟨column, hplace, hd⟩ := Option.bind_eq_some_iff.mp h
  refine ⟨column, hplace, hd, ?_⟩
  rw [Schema.offsetAt?, hplace, Option.bind_some, Schema.getElem?_offsets, hd, Option.map_some]

theorem columnAt_of_dimensionAt? (h : b.schema.dimensionAt? j = some d) :
    ∃ column, b.columnAt j = .ok (column, d) ∧ b.schema.dimensions[column]? = some d := by
  obtain ⟨column, hplace, hd, _⟩ := exists_column_of_dimensionAt? h
  refine ⟨column, ?_, hd⟩
  simp only [columnAt, hplace, hd]

theorem columnAt_eq_ok {column : Nat} (h : b.columnAt j = .ok (column, d)) :
    b.schema.dimensionAt? j = some d ∧ b.schema.dimensions[column]? = some d := by
  unfold columnAt at h
  split at h
  · cases h
  · next place hplace =>
    split at h
    · cases h
    · next hd =>
      cases h
      exact ⟨by rw [Schema.dimensionAt?, hplace, Option.bind_some, hd], hd⟩

theorem columnAt_of_none (h : b.schema.dimensionAt? j = none) :
    b.columnAt j = .error .noSuchIndex := by
  cases hcolumn : b.columnAt j with
  | ok found =>
      rw [(columnAt_eq_ok hcolumn).1] at h
      cases h
  | error e =>
      unfold columnAt at hcolumn
      split at hcolumn
      · exact hcolumn ▸ rfl
      · split at hcolumn
        · exact hcolumn ▸ rfl
        · cases hcolumn

theorem checkType_eq_ok_iff {n : Number} :
    checkType n d type = .ok () ↔ d.storage.isAskedFor type = true := by
  cases type with
  | null => exact ⟨fun _ => rfl, fun _ => rfl⟩
  | text t =>
      simp only [checkType, Storage.isAskedFor]
      cases ElementType.ofText? t with
      | none => simp
      | some given =>
          dsimp only
          split
          · next h => simp [h]
          · next h => simp [h]
  | list items => cases items <;> simp [checkType, Storage.isAskedFor]
  | record members => cases members <;> simp [checkType, Storage.isAskedFor]
  | _ => simp [checkType, Storage.isAskedFor]

/-- Whether a number is a point index within the capacity of a buffer. -/
def inRange (b : Buffer) (n : Number) : Bool :=
  (Number.whole 0).le n && n.lt (.whole b.capacity)

theorem field_eq_ok_iff {f : Field} :
    b.field point index type = .ok f ↔
      ∃ position place, point.number = .ok position ∧ b.inRange position = true ∧
        indexOf index = .ok place ∧ b.columnAt place = .ok (f.column, f.dimension) ∧
        f.dimension.storage.isAskedFor type = true ∧ select position = .ok f.selection := by
  unfold field
  constructor
  · intro h
    obtain ⟨position, hposition, h⟩ := exists_of_bind_eq_ok h
    dsimp only at h
    split at h
    · cases h
    · next hrange =>
      obtain ⟨place, hplace, h⟩ := exists_of_bind_eq_ok h
      obtain ⟨⟨column, d⟩, hcolumn, h⟩ := exists_of_bind_eq_ok h
      obtain ⟨⟨⟩, htype, h⟩ := exists_of_bind_eq_ok h
      obtain ⟨selection, hselection, h⟩ := exists_of_bind_eq_ok h
      cases h
      refine ⟨position, place, hposition, ?_, hplace, hcolumn, checkType_eq_ok_iff.mp htype,
        hselection⟩
      simpa [inRange] using hrange
  · rintro ⟨position, place, hposition, hrange, hplace, hcolumn, htype, hselection⟩
    unfold inRange at hrange
    simp [hposition, hrange, hplace, hcolumn, checkType_eq_ok_iff.mpr htype, hselection, bind,
      Except.bind, pure, Except.pure]

theorem exists_select_of_marks (h : point.marks b.capacity row = true) :
    ∃ position selection, point.number = .ok position ∧ b.inRange position = true ∧
      select position = .ok selection := by
  cases point with
  | whole i =>
      simp only [Value.marks, Bool.and_eq_true, beq_iff_eq, decide_eq_true_eq] at h
      refine ⟨_, _, rfl, ?_, rfl⟩
      simp [inRange]
      omega
  | truth t =>
      simp only [Value.marks, Bool.and_eq_true, decide_eq_true_eq] at h
      obtain ⟨⟨rfl, hone⟩, _⟩ := h
      refine ⟨_, _, rfl, ?_, rfl⟩
      simp [inRange, Number.le, Number.lt, Number.place, Number.Place.upTo, Number.Place.before]
      omega
  | _ => cases h

theorem marks_eq_covers {position : Number} {selection : Selection}
    (hposition : point.number = .ok position) (hrange : b.inRange position = true)
    (hselection : select position = .ok selection) (row : Nat) :
    point.marks b.capacity row = selection.covers b.capacity row := by
  cases point with
  | whole i =>
      cases hposition
      cases hselection
      simp only [inRange, Number.le_whole, Number.lt_whole, Bool.and_eq_true,
        decide_eq_true_eq] at hrange
      rw [Bool.eq_iff_iff]
      simp only [Value.marks, Selection.covers, Bool.and_eq_true, beq_iff_eq, decide_eq_true_eq]
      omega
  | truth t =>
      cases hposition
      cases t with
      | false =>
          cases hselection
          rfl
      | true =>
          cases hselection
          have hone : 1 < b.capacity := by
            simpa [inRange, Number.le, Number.lt, Number.place, Number.Place.upTo,
              Number.Place.before] using hrange
          simp [Value.marks, Selection.covers, hone]
  | real x =>
      cases hposition
      cases hselection
  | _ => cases hposition

theorem named?_eq_some_iff :
    b.schema.named? index type = some d ↔
      ∃ place, indexOf index = .ok place ∧ b.schema.dimensionAt? place = some d ∧
        d.storage.isAskedFor type = true := by
  unfold Schema.named?
  cases indexOf index with
  | error e => simp
  | ok place => simp [Option.filter_eq_some_iff]

theorem exists_field (hrow : point.marks b.capacity row = true)
    (hd : b.schema.named? index type = some d) :
    ∃ f, b.field point index type = .ok f ∧ f.dimension = d ∧
      f.selection.covers b.capacity row = true := by
  obtain ⟨position, selection, hposition, hrange, hselection⟩ := exists_select_of_marks hrow
  obtain ⟨place, hplace, hat, htype⟩ := named?_eq_some_iff.mp hd
  obtain ⟨column, hcolumn, _⟩ := columnAt_of_dimensionAt? hat
  refine ⟨⟨column, selection, d⟩, ?_, rfl, ?_⟩
  · exact field_eq_ok_iff.mpr
      ⟨position, place, hposition, hrange, hplace, hcolumn, htype, hselection⟩
  · rw [← marks_eq_covers hposition hrange hselection, hrow]

theorem named?_of_field {f : Field} (h : b.field point index type = .ok f) :
    b.schema.named? index type = some f.dimension ∧
      b.schema.columnOf? f.dimension = some f.column ∧
      ∀ row, point.marks b.capacity row = f.selection.covers b.capacity row := by
  obtain ⟨position, place, hposition, hrange, hplace, hcolumn, htype, hselection⟩ :=
    field_eq_ok_iff.mp h
  obtain ⟨hat, hd⟩ := columnAt_eq_ok hcolumn
  exact ⟨named?_eq_some_iff.mpr ⟨place, hplace, hat, htype⟩, Schema.columnOf?_eq_some_iff.mpr hd,
    marks_eq_covers hposition hrange hselection⟩

theorem rowWords_of_number {s : Storage} {capacity : Nat} {n : Number} {w : UInt64}
    (hv : v.number? = some n) (hw : s.write v = .ok w) :
    rowWords s capacity v = .ok (List.replicate capacity w) := by
  have hextents : v.extents? = some [] := by
    cases v with
    | list items => cases hv
    | _ => rfl
  have hleaves : v.leaves = [v] := by
    cases v with
    | list items => cases hv
    | _ => rfl
  have hwords : [v].mapM s.write = .ok [w] := by
    simp [hw, bind, Except.bind, pure, Except.pure]
  have hspread : spread capacity [w] = .ok (List.replicate capacity w) := by
    unfold spread
    split
    · next h =>
      rw [← h]
      rfl
    · rfl
  simp [rowWords, hextents, hleaves, hwords, hspread, bind, Except.bind, deepestNesting]

theorem setField_of_number {f : Field} {n : Number} {w : UInt64}
    (hf : b.field point index type = .ok f) (hv : v.number? = some n)
    (hw : f.dimension.storage.write v = .ok w) :
    b.setField point index v type =
      .ok (match f.selection with
        | .row k => b.setCell f.column k w
        | .all => b.fillColumn f.column b.capacity fun row =>
            (List.replicate b.capacity w).toArray.getD row 0
        | .nothing => b) := by
  unfold setField
  rw [hf]
  dsimp only [bind, Except.bind]
  cases f.selection with
  | row k =>
      simp only [hw]
      rfl
  | all =>
      simp only [rowWords_of_number hv hw]
      rfl
  | nothing =>
      simp only [rowWords_of_number hv hw]
      rfl

theorem overlays_setField {f : Field} {n : Number} {w : UInt64}
    (hf : b.field point index type = .ok f) (hv : v.number? = some n)
    (hw : f.dimension.storage.write v = .ok w) :
    ∃ b', b.setField point index v type = .ok b' ∧ b'.count = b.count ∧
      Overlays b b' fun row d =>
        if d = f.dimension ∧ f.selection.covers b.capacity row = true then some w else none := by
  obtain ⟨_, hcolumn, _⟩ := named?_of_field hf
  rw [setField_of_number hf hv hw]
  cases f.selection with
  | row n =>
      refine ⟨_, rfl, rfl, rfl, rfl, ?_⟩
      intro d _ row
      rw [word_setCell hcolumn]
      simp only [Selection.covers, beq_iff_eq]
      split <;> rfl
  | all =>
      refine ⟨_, rfl, rfl, rfl, rfl, ?_⟩
      intro d _ row
      rw [word_fillColumn hcolumn]
      simp only [Selection.covers, decide_eq_true_eq]
      split
      · next h => simp [h.2]
      · rfl
  | nothing =>
      refine ⟨_, rfl, rfl, rfl, rfl, ?_⟩
      intro d _ row
      simp [Selection.covers]

end Buffer

end PointStream

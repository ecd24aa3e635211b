import PointStream.Generator.Reading
import PointStream.Stage.Reproject

/-!
# Words of a buffer

The columns of a buffer are addressed by their dimensions here, so that what is said about a row
does not depend on the order of the columns. What an operation does to the words of a buffer is an
overlay: for some rows and dimensions it says which word stands there now, and all other words are
those from before.
-/

namespace PointStream

namespace Schema

theorem columnOf?_inj {s : Schema} {d e : Dimension} {column : Nat}
    (hd : s.columnOf? d = some column) (he : s.columnOf? e = some column) : d = e := by
  obtain ⟨hlt, hdat, _⟩ := List.findIdx?_eq_some_iff_getElem.mp hd
  obtain ⟨_, heat, _⟩ := List.findIdx?_eq_some_iff_getElem.mp he
  exact (beq_iff_eq.mp hdat).symm.trans (beq_iff_eq.mp heat)

theorem has_of_columnOf? {s : Schema} {d : Dimension} {column : Nat}
    (h : s.columnOf? d = some column) : s.has d = true := by
  obtain ⟨hlt, hat, _⟩ := List.findIdx?_eq_some_iff_getElem.mp h
  rw [has, List.contains_iff_mem, ← beq_iff_eq.mp hat]
  exact List.getElem_mem hlt

theorem exists_columnOf? {s : Schema} {d : Dimension} (h : s.has d = true) :
    ∃ column, s.columnOf? d = some column := by
  apply Option.isSome_iff_exists.mp
  rw [columnOf?, List.findIdx?_isSome, List.any_eq_true]
  exact ⟨d, List.contains_iff_mem.mp h, beq_self_eq_true d⟩

/-- Whether a schema has the dimensions that are reprojected. -/
def HasCoordinates (s : Schema) : Prop :=
  ∀ d ∈ coordinateDimensions, s.has d = true

instance (s : Schema) : Decidable s.HasCoordinates :=
  inferInstanceAs (Decidable (∀ d ∈ coordinateDimensions, s.has d = true))

end Schema

/-- The word that a point has in a dimension, if it has one there. -/
def Triple.word? (p : Point) : Dimension → Option UInt64
  | .xF64 => some p.x.bits
  | .yF64 => some p.y.bits
  | .zF64 => some p.z.bits
  | _ => none

/-- The word that a point and its index have in a dimension, if they have one there. -/
def rowWord? (p : Point) (index : Nat) : Dimension → Option UInt64
  | .timeU64 => some (UInt64.ofNat index)
  | d => p.word? d

/-- The dimensions that generated points are written to. -/
def generatedDimensions : List Dimension :=
  [.xF64, .yF64, .zF64, .timeU64]

/-- The words of a row with a point and its index in their dimensions, and zeros in all others. -/
def Schema.wordRow (s : Schema) (p : Point) (index : Nat) : List UInt64 :=
  s.dimensions.map fun d => (rowWord? p index d).getD 0

namespace Buffer

/-- The word of a dimension in a row; zero where a buffer lacks the dimension. -/
def word (b : Buffer) (d : Dimension) (row : Nat) : UInt64 :=
  match b.schema.columnOf? d with
  | some column => b.cell column row
  | none => 0

def point (b : Buffer) (row : Nat) : Point :=
  ⟨⟨b.word .xF64 row⟩, ⟨b.word .yF64 row⟩, ⟨b.word .zF64 row⟩⟩

/-- The points in the rows that hold points. -/
def points (b : Buffer) : List Point :=
  (List.range b.count).map b.point

theorem word_eq_cell {b : Buffer} {d : Dimension} {column : Nat}
    (h : b.schema.columnOf? d = some column) (row : Nat) : b.word d row = b.cell column row := by
  simp only [word, h]

@[simp]
theorem layout_fillColumn (b : Buffer) (column n : Nat) (f : Nat → UInt64) :
    (b.fillColumn column n f).layout = b.layout :=
  rfl

@[simp]
theorem capacity_fillColumn (b : Buffer) (column n : Nat) (f : Nat → UInt64) :
    (b.fillColumn column n f).capacity = b.capacity :=
  rfl

@[simp]
theorem count_fillColumn (b : Buffer) (column n : Nat) (f : Nat → UInt64) :
    (b.fillColumn column n f).count = b.count :=
  rfl

theorem word_modifyColumn {b : Buffer} {d : Dimension} {column : Nat}
    (h : b.schema.columnOf? d = some column) (f : Column → Column) (e : Dimension) (row : Nat) :
    (b.modifyColumn column f).word e row =
      if e = d then (f (b.columns.get column)).get row else b.word e row := by
  change (match b.schema.columnOf? e with
    | some column' => (b.modifyColumn column f).cell column' row
    | none => 0) = _
  by_cases hed : e = d
  · subst hed
    simp [h, modifyColumn, cell, Table.get_modify]
  · cases he : b.schema.columnOf? e with
    | none => simp [word, he, hed]
    | some column' =>
        have hne : column' ≠ column := fun hc => hed (Schema.columnOf?_inj (hc ▸ he) h)
        simp [word, he, hed, modifyColumn, cell, Table.get_modify, hne]

theorem word_setCell {b : Buffer} {d : Dimension} {column : Nat}
    (h : b.schema.columnOf? d = some column) (n : Nat) (w : UInt64) (e : Dimension) (row : Nat) :
    (b.setCell column n w).word e row = if e = d ∧ row = n then w else b.word e row := by
  rw [setCell, word_modifyColumn h, Table.get_set]
  by_cases hed : e = d
  · subst hed
    simp [word_eq_cell h, cell]
  · simp [hed]

theorem word_fillColumn {b : Buffer} {d : Dimension} {column : Nat}
    (h : b.schema.columnOf? d = some column) (n : Nat) (f : Nat → UInt64) (e : Dimension)
    (row : Nat) :
    (b.fillColumn column n f).word e row =
      if e = d ∧ row < n then f row else b.word e row := by
  rw [fillColumn, word_modifyColumn h, Table.get_fill]
  by_cases hed : e = d
  · subst hed
    simp [word_eq_cell h, cell]
  · simp [hed]

theorem word_fillDimension (b : Buffer) (d : Dimension) (n : Nat) (f : Nat → UInt64)
    (e : Dimension) (row : Nat) :
    (b.fillDimension d n f).word e row =
      if e = d ∧ b.schema.has d = true ∧ row < n then f row else b.word e row := by
  unfold fillDimension
  split
  · next hnone =>
    have hhas : ¬b.schema.has d = true := by
      intro hhas
      obtain ⟨column, hcolumn⟩ := Schema.exists_columnOf? hhas
      rw [hnone] at hcolumn
      cases hcolumn
    simp [hhas]
  · next column hcolumn =>
    simp [word_fillColumn hcolumn, Schema.has_of_columnOf? hcolumn]

@[simp]
theorem layout_fillDimension (b : Buffer) (d : Dimension) (n : Nat) (f : Nat → UInt64) :
    (b.fillDimension d n f).layout = b.layout := by
  unfold fillDimension
  split <;> rfl

@[simp]
theorem capacity_fillDimension (b : Buffer) (d : Dimension) (n : Nat) (f : Nat → UInt64) :
    (b.fillDimension d n f).capacity = b.capacity := by
  unfold fillDimension
  split <;> rfl

@[simp]
theorem count_fillDimension (b : Buffer) (d : Dimension) (n : Nat) (f : Nat → UInt64) :
    (b.fillDimension d n f).count = b.count := by
  unfold fillDimension
  split <;> rfl

@[simp]
theorem schema_fillDimension (b : Buffer) (d : Dimension) (n : Nat) (f : Nat → UInt64) :
    (b.fillDimension d n f).schema = b.schema :=
  congrArg Layout.schema (layout_fillDimension b d n f)

@[simp]
theorem word_blank (layout : Layout) (capacity : Nat) (d : Dimension) (row : Nat) :
    (blank layout capacity).word d row = 0 := by
  unfold word
  split
  · simp [cell, blank, Column.zeros]
  · rfl

theorem word_eq_zero {b : Buffer} {d : Dimension} (h : b.schema.has d = false) (row : Nat) :
    b.word d row = 0 := by
  unfold word
  split
  · next column hcolumn =>
    rw [Schema.has_of_columnOf? hcolumn] at h
    cases h
  · rfl

@[simp]
theorem length_points (b : Buffer) : b.points.length = b.count := by
  simp [points]

@[simp]
theorem getElem_points (b : Buffer) {row : Nat} (h : row < b.points.length) :
    b.points[row] = b.point row := by
  simp [points]

/-- The words of the rows that hold points, in the order of the dimensions. -/
def wordRows (b : Buffer) : List (List UInt64) :=
  (List.range b.count).map fun row => b.schema.dimensions.map fun d => b.word d row

/-- A row holds a point and its index in those of their columns that the buffer has. -/
def RowIs (b : Buffer) (row : Nat) (p : Point) (index : Nat) : Prop :=
  (b.schema.has .xF64 = true → b.word .xF64 row = p.x.bits) ∧
    (b.schema.has .yF64 = true → b.word .yF64 row = p.y.bits) ∧
    (b.schema.has .zF64 = true → b.word .zF64 row = p.z.bits) ∧
    (b.schema.has .timeU64 = true → (b.word .timeU64 row).toNat = index)

/-- A buffer with the layout and the capacity of another one, whose words are those that `f` gives,
and the words of the other buffer where `f` gives none. -/
structure Overlays (b b' : Buffer) (f : Nat → Dimension → Option UInt64) : Prop where
  layout : b'.layout = b.layout
  capacity : b'.capacity = b.capacity
  word : ∀ d, b.schema.has d = true → ∀ row, b'.word d row = (f row d).getD (b.word d row)

/-- The words of points that were generated from an index on. -/
def written (ps : List Point) (start : Nat) : Nat → Dimension → Option UInt64 :=
  fun row d => (ps[row]?).bind fun p => rowWord? p (start + row) d

/-- The words of points that were moved to other places. -/
def moved (ps : List Point) : Nat → Dimension → Option UInt64 :=
  fun row d => (ps[row]?).bind fun p => p.word? d

namespace Overlays

variable {b b' b'' : Buffer} {f g : Nat → Dimension → Option UInt64}

theorem schema (h : Overlays b b' f) : b'.schema = b.schema :=
  congrArg Layout.schema h.layout

theorem congr (h : Overlays b b' f) (hfg : ∀ row d, f row d = g row d) : Overlays b b' g := by
  have heq : f = g := funext fun row => funext fun d => hfg row d
  exact heq ▸ h

theorem trans (h : Overlays b b' f) (h' : Overlays b' b'' g) :
    Overlays b b'' fun row d => (g row d).or (f row d) := by
  refine ⟨h'.layout.trans h.layout, h'.capacity.trans h.capacity, ?_⟩
  intro d hd row
  rw [h'.word d (h.schema ▸ hd) row, h.word d hd row]
  cases g row d <;> rfl

theorem holding (h : Overlays b b' f) (n : Nat) : Overlays b (b'.holding n) f :=
  ⟨h.layout, h.capacity, h.word⟩

theorem point_eq (h : Overlays b b' f) (hcoordinates : b.schema.HasCoordinates) {row : Nat}
    {p : Point} (hp : ∀ d ∈ coordinateDimensions, f row d = p.word? d) : b'.point row = p := by
  have hword : ∀ d ∈ coordinateDimensions, b'.word d row = (p.word? d).getD (b.word d row) := by
    intro d hd
    rw [h.word d (hcoordinates d hd) row, hp d hd]
  simp only [point, hword .xF64 (by decide), hword .yF64 (by decide), hword .zF64 (by decide),
    Triple.word?, Option.getD_some]

theorem points_eq {ps : List Point} (hcount : b'.count = ps.length)
    (h : ∀ (row : Nat) (hrow : row < ps.length), b'.point row = ps[row]) : b'.points = ps := by
  apply List.ext_getElem
  · rw [length_points, hcount]
  · intro row _ hrow
    rw [getElem_points]
    exact h row hrow

theorem point_written {ps : List Point} {start : Nat} (h : Overlays b b' (written ps start))
    (hcoordinates : b.schema.HasCoordinates) {row : Nat} (hrow : row < ps.length) :
    b'.point row = ps[row] := by
  apply h.point_eq hcoordinates
  intro d hd
  rw [written, List.getElem?_eq_getElem hrow, Option.bind_some]
  cases d with
  | timeU64 => exact absurd hd (by decide)
  | _ => rfl

theorem points_written {ps : List Point} {start : Nat} (h : Overlays b b' (written ps start))
    (hcoordinates : b.schema.HasCoordinates) (hcount : b'.count = ps.length) : b'.points = ps :=
  points_eq hcount fun _ hrow => h.point_written hcoordinates hrow

theorem points_moved {ps : List Point} (h : Overlays b b' (moved ps))
    (hcoordinates : b.schema.HasCoordinates) (hcount : b'.count = ps.length) : b'.points = ps := by
  apply points_eq hcount
  intro row hrow
  apply h.point_eq hcoordinates
  intro d _
  rw [moved, List.getElem?_eq_getElem hrow, Option.bind_some]

theorem word_of_eq_none {d : Dimension} {row : Nat} (h : Overlays b b' f) (hnone : f row d = none) :
    b'.word d row = b.word d row := by
  cases hd : b.schema.has d with
  | false => rw [word_eq_zero hd, word_eq_zero (h.schema ▸ hd)]
  | true => rw [h.word d hd row, hnone, Option.getD_none]

theorem word_written {ps : List Point} {start : Nat} {d : Dimension} {row : Nat}
    (h : Overlays b b' (written ps start))
    (hother : d ∉ generatedDimensions ∨ ps.length ≤ row) : b'.word d row = b.word d row := by
  apply h.word_of_eq_none
  rcases hother with hd | hrow
  · cases d <;> simp_all [written, rowWord?, Triple.word?, generatedDimensions]
  · simp only [written, List.getElem?_eq_none hrow, Option.bind_none]

theorem word_moved {ps : List Point} {d : Dimension} {row : Nat} (h : Overlays b b' (moved ps))
    (hother : d ∉ coordinateDimensions ∨ ps.length ≤ row) : b'.word d row = b.word d row := by
  apply h.word_of_eq_none
  rcases hother with hd | hrow
  · cases d <;> simp_all [moved, Triple.word?, coordinateDimensions]
  · simp only [moved, List.getElem?_eq_none hrow, Option.bind_none]

theorem rowIs_written {ps : List Point} {start row : Nat} (h : Overlays b b' (written ps start))
    (hrow : row < ps.length) (hindex : start + row < 2 ^ 64) :
    b'.RowIs row ps[row] (start + row) := by
  have hword : ∀ d, b'.schema.has d = true →
      b'.word d row = (rowWord? ps[row] (start + row) d).getD (b.word d row) := by
    intro d hd
    rw [h.word d (h.schema ▸ hd) row, written, List.getElem?_eq_getElem hrow, Option.bind_some]
  refine ⟨fun hd => hword .xF64 hd, fun hd => hword .yF64 hd, fun hd => hword .zF64 hd, ?_⟩
  intro hd
  rw [hword .timeU64 hd]
  simp only [rowWord?, Option.getD_some, UInt64.toNat_ofNat']
  exact Nat.mod_eq_of_lt hindex

theorem written_moved {ps qs : List Point} {start : Nat} (h : Overlays b b' (written ps start))
    (h' : Overlays b' b'' (moved qs)) (hlength : qs.length = ps.length) :
    Overlays b b'' (written qs start) := by
  apply (h.trans h').congr
  intro row d
  by_cases hrow : row < qs.length
  · have hrow' : row < ps.length := hlength ▸ hrow
    simp only [moved, written, List.getElem?_eq_getElem hrow, List.getElem?_eq_getElem hrow',
      Option.bind_some]
    cases d <;> rfl
  · have hrow' : ¬row < ps.length := hlength ▸ hrow
    simp [moved, written, List.getElem?_eq_none (Nat.le_of_not_lt hrow),
      List.getElem?_eq_none (Nat.le_of_not_lt hrow')]

theorem wordRows_written {layout : Layout} {capacity m start : Nat} {Q : Nat → Point}
    (h : Overlays (blank layout capacity) b'
      (written ((List.range m).map fun r => Q (start + r)) start))
    (hcount : b'.count = m) :
    b'.wordRows =
      (List.range m).map fun r => layout.schema.wordRow (Q (start + r)) (start + r) := by
  unfold wordRows
  rw [hcount]
  apply List.map_congr_left
  intro row hrow
  have hrow := List.mem_range.mp hrow
  unfold Schema.wordRow
  rw [h.schema]
  apply List.map_congr_left
  intro d hd
  have hhas : layout.schema.has d = true := List.contains_iff_mem.mpr hd
  have hpoint : ((List.range m).map fun r => Q (start + r))[row]? = some (Q (start + row)) := by
    simp [hrow]
  rw [h.word d hhas row, word_blank, written, hpoint, Option.bind_some]

end Overlays

theorem overlays_putGenerated (b : Buffer) {ps : List Point} {indices : List UInt64} {start : Nat}
    (hindices : indices = (List.range ps.length).map fun r => UInt64.ofNat (start + r)) :
    Overlays b (b.putGenerated indices ps) (written ps start) := by
  have hlength : indices.length = ps.length := by simp [hindices]
  refine ⟨by simp [putGenerated], by simp [putGenerated], ?_⟩
  intro d hd row
  by_cases hrow : row < ps.length
  · have htime : indices.toArray.getD row 0 = UInt64.ofNat (start + row) := by
      simp [hindices, hrow]
    have hpoint : ps.toArray.getD row (Triple.all 0) = ps[row] := by
      simp [hrow]
    simp only [putGenerated, word_fillDimension, schema_fillDimension, written, htime, hpoint,
      hlength, List.getElem?_eq_getElem hrow, Option.bind_some]
    cases d <;> simp [rowWord?, Triple.word?, hd, hrow]
  · simp [putGenerated, word_fillDimension, written, hlength, hrow]

theorem exists_coordinateColumns {b : Buffer} (h : b.schema.HasCoordinates) :
    ∃ columns, b.coordinateColumns = .ok columns ∧ b.schema.columnOf? .xF64 = some columns.x ∧
      b.schema.columnOf? .yF64 = some columns.y ∧ b.schema.columnOf? .zF64 = some columns.z := by
  obtain ⟨x, hx⟩ := Schema.exists_columnOf? (h .xF64 (by decide))
  obtain ⟨y, hy⟩ := Schema.exists_columnOf? (h .yF64 (by decide))
  obtain ⟨z, hz⟩ := Schema.exists_columnOf? (h .zF64 (by decide))
  refine ⟨⟨x, y, z⟩, ?_, hx, hy, hz⟩
  simp only [coordinateColumns, Triple.mapM, Schema.columnOf, hx, hy, hz]
  rfl

theorem coordinateColumns_cases (b : Buffer) :
    (∃ columns, b.coordinateColumns = .ok columns ∧ b.schema.HasCoordinates) ∨
      ∃ d, b.coordinateColumns = .error (.dimensionMissing d b.schema) := by
  unfold coordinateColumns Triple.mapM Schema.columnOf
  dsimp only [bind, Except.bind]
  cases hx : b.schema.columnOf? .xF64 with
  | none => exact .inr ⟨_, rfl⟩
  | some x =>
      cases hy : b.schema.columnOf? .yF64 with
      | none => exact .inr ⟨_, rfl⟩
      | some y =>
          cases hz : b.schema.columnOf? .zF64 with
          | none => exact .inr ⟨_, rfl⟩
          | some z =>
              refine .inl ⟨⟨x, y, z⟩, rfl, ?_⟩
              simp only [Schema.HasCoordinates, coordinateDimensions, List.forall_mem_cons]
              exact ⟨Schema.has_of_columnOf? hx, Schema.has_of_columnOf? hy,
                Schema.has_of_columnOf? hz, nofun⟩

variable {b : Buffer} {columns : Triple Nat}

theorem coordinateColumns_eq_error {e : Failure} (h : b.coordinateColumns = .error e) :
    ∃ d, e = .dimensionMissing d b.schema := by
  rcases b.coordinateColumns_cases with ⟨columns, hcolumns, _⟩ | ⟨d, hcolumns⟩
  · rw [hcolumns] at h
    cases h
  · rw [hcolumns] at h
    cases h
    exact ⟨d, rfl⟩

theorem hasCoordinates_of_columns (h : b.coordinateColumns = .ok columns) :
    b.schema.HasCoordinates := by
  rcases b.coordinateColumns_cases with ⟨_, _, hcoordinates⟩ | ⟨d, hcolumns⟩
  · exact hcoordinates
  · rw [hcolumns] at h
    cases h

theorem pointsIn_eq_points (hx : b.schema.columnOf? .xF64 = some columns.x)
    (hy : b.schema.columnOf? .yF64 = some columns.y)
    (hz : b.schema.columnOf? .zF64 = some columns.z) : b.pointsIn columns = b.points := by
  have hpoint : b.pointIn columns = b.point := by
    funext row
    simp only [pointIn, Triple.map, point, word_eq_cell hx, word_eq_cell hy, word_eq_cell hz]
  rw [pointsIn, hpoint, points]

theorem overlays_putPoints (hx : b.schema.columnOf? .xF64 = some columns.x)
    (hy : b.schema.columnOf? .yF64 = some columns.y)
    (hz : b.schema.columnOf? .zF64 = some columns.z) (ps : List Point) :
    Overlays b (b.putPoints columns ps) (moved ps) := by
  have hy' (f : Nat → UInt64) :
      (b.fillColumn columns.x ps.length f).schema.columnOf? .yF64 = some columns.y := hy
  have hz' (f g : Nat → UInt64) :
      ((b.fillColumn columns.x ps.length f).fillColumn columns.y ps.length g).schema.columnOf?
        .zF64 = some columns.z := hz
  refine ⟨by simp [putPoints], by simp [putPoints], ?_⟩
  intro d _ row
  simp only [putPoints]
  rw [word_fillColumn (hz' _ _), word_fillColumn (hy' _), word_fillColumn hx]
  by_cases hrow : row < ps.length
  · have hpoint : ps.toArray.getD row (Triple.all 0) = ps[row] := by
      simp [hrow]
    simp only [moved, hpoint, List.getElem?_eq_getElem hrow, Option.bind_some]
    cases d <;> simp [Triple.word?, hrow]
  · simp [moved, hrow]

end Buffer

end PointStream

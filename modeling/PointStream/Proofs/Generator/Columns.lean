import PointStream.Proofs.Generator.Outcome
import PointStream.Proofs.Generator.Rows

namespace PointStream

namespace Buffer

/-- What a read from an index on makes of a buffer that takes a number of points: in the rows before
that number every generated dimension has its part of the point in the column where the schema has
it, and everything else is as it was. -/
structure Fills (b b' : Buffer) (n start : Nat) (pointAt : Nat → Point) : Prop where
  layout : b'.layout = b.layout
  capacity : b'.capacity = b.capacity
  count : b'.count = b.count
  x : ∀ {column row}, b.schema.columnOf? .xF64 = some column → row < n →
    b'.cell column row = (pointAt (start + row)).x.bits
  y : ∀ {column row}, b.schema.columnOf? .yF64 = some column → row < n →
    b'.cell column row = (pointAt (start + row)).y.bits
  z : ∀ {column row}, b.schema.columnOf? .zF64 = some column → row < n →
    b'.cell column row = (pointAt (start + row)).z.bits
  time : ∀ {column row}, b.schema.columnOf? .timeU64 = some column → row < n →
    (b'.cell column row).toNat = start + row
  others : ∀ {d column row}, b.schema.columnOf? d = some column →
    d ∉ generatedDimensions ∨ n ≤ row → b'.cell column row = b.cell column row

variable {b b' : Buffer} {n start : Nat} {pointAt : Nat → Point}

theorem Overlays.cell_eq {f : Nat → Dimension → Option UInt64} (h : Overlays b b' f)
    {d : Dimension} {column : Nat} (hcolumn : b.schema.columnOf? d = some column) (row : Nat) :
    b'.cell column row = b'.word d row :=
  (word_eq_cell (h.schema ▸ hcolumn) row).symm

theorem Overlays.fills
    (h : Overlays b b' (written ((List.range n).map fun r => pointAt (start + r)) start))
    (hcount : b'.count = b.count) (hwords : ∀ row < n, start + row < 2 ^ 64) :
    b.Fills b' n start pointAt := by
  have hrow : ∀ row < n, b'.RowIs row (pointAt (start + row)) (start + row) := by
    intro row hrow
    have hrowIs := h.rowIs_written (by simpa using hrow) (hwords row hrow)
    simpa using hrowIs
  have hhas : ∀ {d column}, b.schema.columnOf? d = some column → b'.schema.has d = true :=
    fun hcolumn => h.schema ▸ Schema.has_of_columnOf? hcolumn
  refine ⟨h.layout, h.capacity, hcount, ?_, ?_, ?_, ?_, ?_⟩
  · intro column row hcolumn hlt
    rw [h.cell_eq hcolumn]
    exact (hrow row hlt).1 (hhas hcolumn)
  · intro column row hcolumn hlt
    rw [h.cell_eq hcolumn]
    exact (hrow row hlt).2.1 (hhas hcolumn)
  · intro column row hcolumn hlt
    rw [h.cell_eq hcolumn]
    exact (hrow row hlt).2.2.1 (hhas hcolumn)
  · intro column row hcolumn hlt
    rw [h.cell_eq hcolumn]
    exact (hrow row hlt).2.2.2 (hhas hcolumn)
  · intro d column row hcolumn hother
    rw [h.cell_eq hcolumn, ← word_eq_cell hcolumn]
    exact h.word_written (by simpa using hother)

/-- Two buffers that were filled agree on a point that both have, whatever their schemas are and
whatever they held before. -/
theorem Fills.agree {b₁ b₁' b₂ b₂' : Buffer} {n₁ n₂ start₁ start₂ column₁ column₂ row₁ row₂ : Nat}
    (h₁ : b₁.Fills b₁' n₁ start₁ pointAt) (h₂ : b₂.Fills b₂' n₂ start₂ pointAt) {d : Dimension}
    (hd : d ∈ generatedDimensions) (hcolumn₁ : b₁.schema.columnOf? d = some column₁)
    (hcolumn₂ : b₂.schema.columnOf? d = some column₂) (hrow₁ : row₁ < n₁) (hrow₂ : row₂ < n₂)
    (hindex : start₁ + row₁ = start₂ + row₂) :
    b₁'.cell column₁ row₁ = b₂'.cell column₂ row₂ := by
  simp only [generatedDimensions, List.mem_cons, List.not_mem_nil, or_false] at hd
  rcases hd with rfl | rfl | rfl | rfl
  · rw [h₁.x hcolumn₁ hrow₁, h₂.x hcolumn₂ hrow₂, hindex]
  · rw [h₁.y hcolumn₁ hrow₁, h₂.y hcolumn₂ hrow₂, hindex]
  · rw [h₁.z hcolumn₁ hrow₁, h₂.z hcolumn₂ hrow₂, hindex]
  · apply UInt64.toNat_inj.mp
    rw [h₁.time hcolumn₁ hrow₁, h₂.time hcolumn₂ hrow₂, hindex]

end Buffer

namespace Generator

variable {g : Generator}

theorem exists_fills (htotal : g.total < 2 ^ 64) (number : Nat) (options : Options) (b : Buffer)
    (start : Nat) :
    ∃ filled, (Stage.source number options (.generated g)).readInPlace b (.whole start) =
        (.ok (.whole (min b.capacity (g.total - start))), filled) ∧
      b.Fills filled (min b.capacity (g.total - start)) start g.pointAt := by
  obtain ⟨filled, hread, hoverlays⟩ := g.exists_read htotal b start
  refine ⟨filled, ?_, hoverlays.fills (count_read hread) ?_⟩
  · simp only [Stage.readInPlace, Stage.readPoints_whole, hread, Except.map]
  · intro row hrow
    omega

/-- A read fills a buffer with any schema with as many points as fit and are left, and writes a point
that another read gives too just as that one does. -/
theorem fills_own_columns (htotal : g.total < 2 ^ 64) (number : Nat) (options : Options) :
    let read (b : Buffer) (start : Nat) :=
      (Stage.source number options (.generated g)).readInPlace b (.whole start)
    (∀ b start, ∃ filled,
      read b start = (.ok (.whole (min b.capacity (g.total - start))), filled) ∧
        b.Fills filled (min b.capacity (g.total - start)) start g.pointAt) ∧
    ∀ b₁ b₂ start₁ start₂ row₁ row₂ d column₁ column₂, d ∈ generatedDimensions →
      b₁.schema.columnOf? d = some column₁ → b₂.schema.columnOf? d = some column₂ →
      row₁ < min b₁.capacity (g.total - start₁) → row₂ < min b₂.capacity (g.total - start₂) →
      start₁ + row₁ = start₂ + row₂ →
        (read b₁ start₁).2.cell column₁ row₁ = (read b₂ start₂).2.cell column₂ row₂ := by
  intro read
  refine ⟨exists_fills htotal number options, ?_⟩
  intro b₁ b₂ start₁ start₂ row₁ row₂ d column₁ column₂ hd hcolumn₁ hcolumn₂ hrow₁ hrow₂ hindex
  obtain ⟨filled₁, hread₁, hfills₁⟩ := exists_fills htotal number options b₁ start₁
  obtain ⟨filled₂, hread₂, hfills₂⟩ := exists_fills htotal number options b₂ start₂
  simp only [read, hread₁, hread₂]
  exact hfills₁.agree hfills₂ hd hcolumn₁ hcolumn₂ hrow₁ hrow₂ hindex

/-- The last two of six points in a buffer of three rows that held something in every cell. Its schema
has the coordinates in another order, two look-alikes and no second coordinate. A buffer with the
schema of the reader that is read from the index before takes the last point just so. -/
theorem fills_foreign_columns :
    let g : Generator := ⟨⟨⟨⟨1⟩, ⟨2⟩, ⟨3⟩⟩, .all 1⟩, 6, .constant, .standard, 0⟩
    let layout : Layout :=
      ⟨⟨[.xI32, .zF64, .gpsTimeF64, .timeU64, .xF64], by decide⟩, .free 0⟩
    let b := ((List.range 5).foldl (fun b column => b.fillColumn column 3 fun _ => 7)
      (Buffer.blank layout 3)).holding 3
    let out := (Stage.source 0 [] (.generated g)).readInPlace b (.whole 4)
    let out' := (Stage.source 0 [] (.generated g)).readInPlace
      (Buffer.blank ⟨.standard, .free 1⟩ 4) (.whole 3)
    g.total < 2 ^ 64 ∧ out.1 = .ok (.whole 2) ∧ out.2.count = 3 ∧
      (List.range 5).map (fun column => (List.range 3).map (out.2.cell column)) =
        [[7, 7, 7], [3, 3, 7], [7, 7, 7], [4, 5, 7], [1, 1, 7]] ∧
      out.2.cell 4 1 = out'.2.cell 0 2 := by
  intro g layout b out out'
  have htotal : g.total < 2 ^ 64 := by decide
  obtain ⟨filled, hread, hfills⟩ := (fills_own_columns htotal 0 []).1 b 4
  have hz : ∀ row < 2, filled.cell 1 row = 3 := fun _ hrow => hfills.z rfl hrow
  have hx : ∀ row < 2, filled.cell 4 row = 1 := fun _ hrow => hfills.x rfl hrow
  have htime : ∀ row < 2, filled.cell 3 row = UInt64.ofNat (4 + row) := by
    intro row hrow
    rw [← hfills.time rfl hrow, UInt64.ofNat_toNat]
  have hi32 : ∀ row, filled.cell 0 row = b.cell 0 row := fun _ =>
    hfills.others (show b.schema.columnOf? .xI32 = some 0 from rfl) (.inl (by decide))
  have hgps : ∀ row, filled.cell 2 row = b.cell 2 row := fun _ =>
    hfills.others (show b.schema.columnOf? .gpsTimeF64 = some 2 from rfl) (.inl (by decide))
  have hzLast : filled.cell 1 2 = b.cell 1 2 :=
    hfills.others (show b.schema.columnOf? .zF64 = some 1 from rfl) (.inr (Nat.le_refl 2))
  have htimeLast : filled.cell 3 2 = b.cell 3 2 :=
    hfills.others (show b.schema.columnOf? .timeU64 = some 3 from rfl) (.inr (Nat.le_refl 2))
  have hxLast : filled.cell 4 2 = b.cell 4 2 :=
    hfills.others (show b.schema.columnOf? .xF64 = some 4 from rfl) (.inr (Nat.le_refl 2))
  have hbefore : ∀ column < 5, ∀ row < 3, b.cell column row = 7 := by decide
  have hsame : out.2.cell 4 1 = out'.2.cell 0 2 :=
    (fills_own_columns htotal 0 []).2 b _ 4 3 1 2 .xF64 4 0 (by decide) rfl rfl (by decide)
      (by decide) rfl
  have hout : out = (.ok (.whole 2), filled) := hread
  rw [hout] at hsame ⊢
  refine ⟨htotal, rfl, hfills.count, ?_, hsame⟩
  simp [List.range_succ, hz, hx, htime, hi32, hgps, hzLast, htimeLast, hxLast, hbefore]

end Generator

end PointStream

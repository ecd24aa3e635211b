import PointStream.Failure
import Mathlib.Algebra.Ring.Nat

namespace PointStream

theorem getElem?_placeOfIndex? {α : Type} {length : Nat} {xs : List α} (h : xs.length = length)
    (i : Nat) : ((placeOfIndex? length i).bind fun place => xs[place]?) = xs[i]? := by
  unfold placeOfIndex?
  rw [if_pos (Int.natCast_nonneg i), Int.toNat_natCast, ← h]
  split
  · rfl
  · next hi => exact (List.getElem?_eq_none (by omega)).symm

namespace Schema

variable {s : Schema} {d : Dimension} {i : Nat}

theorem split_of_firstRepeated? {before ds : List Dimension}
    (h : firstRepeated? before ds = some d) :
    ∃ front behind, ds = front ++ d :: behind ∧ firstRepeated? before front = none ∧
      (d ∈ before ∨ d ∈ front) := by
  induction ds generalizing before with
  | nil => cases h
  | cons e ds ih =>
      rw [firstRepeated?] at h
      split at h
      · next he =>
        cases h
        exact ⟨[], ds, rfl, rfl, .inl he⟩
      · next he =>
        obtain ⟨front, behind, rfl, hfront, hd⟩ := ih h
        refine ⟨e :: front, behind, rfl, ?_, ?_⟩
        · rw [firstRepeated?, if_neg he]
          exact hfront
        · rcases hd with hd | hd
          · rcases List.mem_cons.mp hd with rfl | hd
            · exact .inr (List.mem_cons_self ..)
            · exact .inl hd
          · exact .inr (List.mem_cons_of_mem e hd)

theorem ofDimensions_cases (ds : List Dimension) :
    (∃ h : ds.Nodup, Schema.ofDimensions ds = .ok ⟨ds, h⟩) ∨
      ∃ d front behind, Schema.ofDimensions ds = .error (.dimensionRepeated d) ∧
        ds = front ++ d :: behind ∧ front.Nodup ∧ d ∈ front := by
  unfold ofDimensions ofList?
  split
  · next d hd =>
    obtain ⟨front, behind, hds, hfront, hmem⟩ := split_of_firstRepeated? hd
    exact .inr ⟨d, front, behind, rfl, hds, (nodup_of_firstRepeated?_eq_none hfront).1,
      hmem.resolve_left List.not_mem_nil⟩
  · next hnone => exact .inl ⟨(nodup_of_firstRepeated?_eq_none hnone).1, rfl⟩

theorem dimensionAt?_natCast (s : Schema) (i : Nat) : s.dimensionAt? i = s.dimensions[i]? :=
  getElem?_placeOfIndex? rfl i

theorem length_ids (s : Schema) : s.ids.length = s.size :=
  List.length_map ..

theorem fieldAt?_natCast (s : Schema) (i : Nat) :
    s.fieldAt? i = s.dimensions[i]?.map Dimension.id := by
  rw [fieldAt?, getElem?_placeOfIndex? s.length_ids, ids, List.getElem?_map]

theorem columnOf?_eq_some_iff : s.columnOf? d = some i ↔ s.dimensions[i]? = some d := by
  rw [columnOf?, List.findIdx?_eq_some_iff_getElem]
  constructor
  · rintro ⟨hlt, hat, _⟩
    rw [List.getElem?_eq_getElem hlt, beq_iff_eq.mp hat]
  · intro h
    obtain ⟨hlt, hat⟩ := List.getElem?_eq_some_iff.mp h
    refine ⟨hlt, beq_iff_eq.mpr hat, ?_⟩
    intro j hji hj
    have hne := List.pairwise_iff_getElem.mp s.nodup j i (Nat.lt_trans hji hlt) hlt hji
    exact hne ((beq_iff_eq.mp hj).trans hat.symm)

theorem columnOf_eq_ok_iff : s.columnOf d = .ok i ↔ s.dimensions[i]? = some d := by
  rw [← columnOf?_eq_some_iff, columnOf]
  cases s.columnOf? d with
  | none => simp
  | some column => simp

theorem exists_columnOf_iff : (∃ i, s.columnOf d = .ok i) ↔ d ∈ s.dimensions := by
  simp only [columnOf_eq_ok_iff, List.mem_iff_getElem?]

theorem columnOf_eq_error_iff {e : Failure} :
    s.columnOf d = .error e ↔ d ∉ s.dimensions ∧ e = .dimensionMissing d s := by
  rw [← exists_columnOf_iff, columnOf]
  cases s.columnOf? d with
  | none => simp [eq_comm]
  | some column => simp

/-- The number of bytes that the dimensions before a place take up. -/
def offset (s : Schema) (place : Nat) : Nat :=
  ((s.dimensions.take place).map Dimension.width).sum

@[simp]
theorem offset_zero (s : Schema) : s.offset 0 = 0 :=
  rfl

theorem offset_succ (h : s.dimensions[i]? = some d) : s.offset (i + 1) = s.offset i + d.width := by
  simp [offset, List.take_add_one, h]

theorem offset_mono {j : Nat} (h : i ≤ j) : s.offset i ≤ s.offset j := by
  induction h with
  | refl => exact Nat.le_refl _
  | @step j _ ih =>
      apply Nat.le_trans ih
      cases hj : s.dimensions[j]? with
      | none => simp [offset, List.take_add_one, hj]
      | some d => exact offset_succ hj ▸ Nat.le_add_right ..

theorem getElem?_offsetsFrom (start : Nat) (ds : List Dimension) (i : Nat) :
    (offsetsFrom start ds)[i]? =
      ds[i]?.map fun _ => start + ((ds.take i).map Dimension.width).sum := by
  induction ds generalizing start i with
  | nil => rfl
  | cons d ds ih =>
      cases i with
      | zero => rfl
      | succ i => simp [offsetsFrom, ih, Nat.add_assoc]

theorem getElem?_offsets (s : Schema) (i : Nat) :
    s.offsets[i]? = s.dimensions[i]?.map fun _ => s.offset i := by
  simp only [offsets, getElem?_offsetsFrom, Nat.zero_add, offset]

theorem byteSize_eq_sum (s : Schema) : s.byteSize = (s.dimensions.map Dimension.width).sum := by
  simp [byteSize, List.sum_eq_foldr, List.foldr_map]

theorem offset_size (s : Schema) : s.offset s.size = s.byteSize := by
  rw [offset, size, List.take_length, byteSize_eq_sum]

theorem length_offsets (s : Schema) : s.offsets.length = s.size := by
  rw [offsets, size]
  generalize 0 = start
  induction s.dimensions generalizing start with
  | nil => rfl
  | cons d ds ih => simp [offsetsFrom, ih]

theorem offsetAt?_natCast (s : Schema) (i : Nat) :
    s.offsetAt? i = s.dimensions[i]?.map fun _ => s.offset i := by
  rw [offsetAt?, getElem?_placeOfIndex? s.length_offsets, getElem?_offsets]

/-- Whether the dimension at a place takes up a byte of a point. -/
def Covers (s : Schema) (place byte : Nat) : Prop :=
  ∃ d offset, s.dimensionAt? place = some d ∧ s.offsetAt? place = some offset ∧ offset ≤ byte ∧
    byte < offset + d.width

theorem covers_iff {byte : Nat} :
    s.Covers i byte ↔ i < s.size ∧ s.offset i ≤ byte ∧ byte < s.offset (i + 1) := by
  unfold Covers
  rw [dimensionAt?_natCast, offsetAt?_natCast]
  constructor
  · rintro ⟨d, offset, hd, hoffset, hle, hlt⟩
    rw [hd] at hoffset
    cases hoffset
    rw [offset_succ hd]
    exact ⟨(List.getElem?_eq_some_iff.mp hd).1, hle, hlt⟩
  · rintro ⟨hi, hle, hlt⟩
    have hd : s.dimensions[i]? = some s.dimensions[i] := List.getElem?_eq_getElem hi
    rw [offset_succ hd] at hlt
    exact ⟨_, _, hd, by rw [hd, Option.map_some], hle, hlt⟩

theorem Covers.unique {byte j : Nat} (hi : s.Covers i byte) (hj : s.Covers j byte) : i = j := by
  obtain ⟨_, hi, hi'⟩ := covers_iff.mp hi
  obtain ⟨_, hj, hj'⟩ := covers_iff.mp hj
  rcases Nat.lt_trichotomy i j with hij | rfl | hji
  · have := offset_mono (s := s) (i := i + 1) (j := j) hij
    omega
  · rfl
  · have := offset_mono (s := s) (i := j + 1) (j := i) hji
    omega

/-- The bytes that are taken up are just those below the byte size. -/
theorem exists_covers_iff {byte : Nat} : (∃ i, s.Covers i byte) ↔ byte < s.byteSize := by
  rw [← offset_size]
  simp only [covers_iff]
  constructor
  · rintro ⟨i, hi, _, hlt⟩
    exact Nat.lt_of_lt_of_le hlt (offset_mono hi)
  · generalize s.size = n
    intro hbyte
    induction n with
    | zero => exact absurd hbyte (Nat.not_lt_zero _)
    | succ n ih =>
        rcases Nat.lt_or_ge byte (s.offset n) with hlt | hge
        · obtain ⟨i, hi, hcovers⟩ := ih hlt
          exact ⟨i, Nat.lt_succ_of_lt hi, hcovers⟩
        · exact ⟨n, Nat.lt_succ_self n, hge, hbyte⟩

/-- Columns and dimensions are found from each other, and every dimension of the schema has a column
and every number below the size is one. -/
structure Indexed (s : Schema) : Prop where
  column_iff : ∀ d (i : Nat), s.columnOf d = .ok i ↔ s.dimensionAt? i = some d
  exists_column_iff : ∀ d, (∃ i < s.size, s.columnOf d = .ok i) ↔ d ∈ s.dimensions
  exists_dimension_iff : ∀ i : Nat, (∃ d ∈ s.dimensions, s.dimensionAt? i = some d) ↔ i < s.size
  missing_iff : ∀ d, s.columnOf d = .error (.dimensionMissing d s) ↔ d ∉ s.dimensions

/-- Dimensions stand one behind the other. -/
structure Packed (s : Schema) : Prop where
  first : ∀ d, s.dimensionAt? 0 = some d → s.offsetAt? 0 = some 0
  next : ∀ (i : Nat) d e, s.dimensionAt? i = some d → s.dimensionAt? (i + 1 : Nat) = some e →
    s.offsetAt? (i + 1 : Nat) = (s.offsetAt? i).map (· + d.width)
  byteSize_eq : s.byteSize = (s.dimensions.map Dimension.width).sum
  disjoint : ∀ i j byte, s.Covers i byte → s.Covers j byte → i = j
  tiles : ∀ byte, (∃ i, s.Covers i byte) ↔ byte < s.byteSize
  field_eq : ∀ (i : Nat) d, s.dimensionAt? i = some d → s.fieldAt? i = some d.id

theorem indexed (s : Schema) : s.Indexed := by
  refine ⟨?_, ?_, ?_, ?_⟩
  · intro d i
    rw [columnOf_eq_ok_iff, dimensionAt?_natCast]
  · intro d
    rw [← exists_columnOf_iff]
    constructor
    · rintro ⟨i, _, hi⟩
      exact ⟨i, hi⟩
    · rintro ⟨i, hi⟩
      exact ⟨i, (List.getElem?_eq_some_iff.mp (columnOf_eq_ok_iff.mp hi)).1, hi⟩
  · intro i
    rw [dimensionAt?_natCast]
    constructor
    · rintro ⟨d, _, hd⟩
      exact (List.getElem?_eq_some_iff.mp hd).1
    · intro hi
      exact ⟨_, List.getElem_mem hi, List.getElem?_eq_getElem hi⟩
  · intro d
    simp only [columnOf_eq_error_iff, and_true]

theorem packed (s : Schema) : s.Packed := by
  refine ⟨?_, ?_, s.byteSize_eq_sum, fun _ _ _ => Covers.unique, fun _ => exists_covers_iff, ?_⟩
  · intro d hd
    rw [← Int.natCast_zero, dimensionAt?_natCast] at hd
    rw [← Int.natCast_zero, offsetAt?_natCast, hd, Option.map_some, offset_zero]
  · intro i d e hd he
    rw [dimensionAt?_natCast] at hd he
    rw [offsetAt?_natCast, offsetAt?_natCast, hd, he, Option.map_some, Option.map_some,
      Option.map_some, offset_succ hd]
  · intro i d hd
    rw [dimensionAt?_natCast] at hd
    rw [fieldAt?_natCast, hd, Option.map_some]

/-- A list of dimensions forms a schema if and only if none of them is repeated. Otherwise the first
one that is repeated is named. The schema keeps their order, which is that of its columns and that of
the bytes of a point. -/
theorem arranges_dimensions (ds : List Dimension) :
    ((∃ s, Schema.ofDimensions ds = .ok s) ↔ ds.Nodup) ∧
      (∀ e, Schema.ofDimensions ds = .error e → ∃ d front behind, e = .dimensionRepeated d ∧
        ds = front ++ d :: behind ∧ front.Nodup ∧ d ∈ front) ∧
      ∀ s, Schema.ofDimensions ds = .ok s → s.dimensions = ds ∧ s.Indexed ∧ s.Packed := by
  rcases ofDimensions_cases ds with ⟨hnodup, hok⟩ | ⟨d, front, behind, herror, hds, hfront, hd⟩
  · rw [hok]
    refine ⟨⟨fun _ => hnodup, fun _ => ⟨_, rfl⟩⟩, nofun, ?_⟩
    rintro s ⟨⟩
    exact ⟨rfl, indexed _, packed _⟩
  · rw [herror]
    refine ⟨⟨nofun, ?_⟩, ?_, nofun⟩
    · intro hnodup
      subst hds
      exact absurd rfl ((List.nodup_append.mp hnodup).2.2 d hd d (List.mem_cons_self ..))
    · rintro e ⟨⟩
      exact ⟨d, front, behind, rfl, hds, hfront, hd⟩

theorem arranges_mixed_widths :
    let ds : List Dimension := [.redU8, .xF64, .scanAngleRankI8, .intensityU16, .xI32]
    Schema.ofDimensions (ds ++ [.xF64]) = .error (.dimensionRepeated .xF64) ∧
      ∃ s, Schema.ofDimensions ds = .ok s ∧ s.dimensions = ds ∧ s.Indexed ∧ s.Packed ∧
        s.offsets = [0, 1, 9, 10, 12] ∧ s.byteSize = 16 := by
  intro ds
  obtain ⟨s, hs⟩ := (arranges_dimensions ds).1.mpr (by decide)
  obtain ⟨hds, hindexed, hpacked⟩ := (arranges_dimensions ds).2.2 s hs
  refine ⟨rfl, s, hs, hds, hindexed, hpacked, ?_, ?_⟩
  · rw [offsets, hds]
    rfl
  · rw [byteSize, hds]
    rfl

end Schema

end PointStream

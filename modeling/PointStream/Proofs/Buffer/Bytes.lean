import PointStream.Proofs.Buffer.Words
import PointStream.Proofs.Lists
import PointStream.Proofs.Schema.Layout

namespace PointStream

namespace Storage

/-- The number that bytes write, the least significant first. -/
def littleEndian : List UInt8 → Nat
  | [] => 0
  | b :: bs => b.toNat + 256 * littleEndian bs

theorem littleEndian_digits (n k : Nat) :
    littleEndian ((List.range k).map fun i => UInt8.ofNat (n / 2 ^ (8 * i))) = n % 2 ^ (8 * k) := by
  induction k generalizing n with
  | zero => simp [littleEndian, Nat.mod_one]
  | succ k ih =>
      have hdigit (i : Nat) : n / 2 ^ (8 * (i + 1)) = n / 256 / 2 ^ (8 * i) := by
        rw [Nat.div_div_eq_div_mul, Nat.mul_succ, Nat.pow_add, Nat.mul_comm (2 ^ (8 * i))]
      rw [List.range_succ_eq_map, List.map_cons, List.map_map, littleEndian]
      simp only [Function.comp_def, Nat.succ_eq_add_one, hdigit, ih, Nat.mul_zero, Nat.pow_zero,
        Nat.div_one, UInt8.toNat_ofNat']
      rw [Nat.mul_succ, Nat.add_comm (8 * k), Nat.pow_add, Nat.mod_mul]

theorem littleEndian_bytes (s : Storage) (w : UInt64) :
    littleEndian (s.bytes w) = w.toNat % s.modulus :=
  littleEndian_digits w.toNat s.width

@[simp]
theorem length_bytes (s : Storage) (w : UInt64) : (s.bytes w).length = s.width := by
  simp [bytes]

end Storage

/-- The number that the bytes of a scalar write: its bits, or the number itself, where a negative one
is counted from the end of its type. -/
def Scalar.code (s : Storage) : Scalar → Nat
  | .real x => x.bits.toNat
  | .whole n => (n % s.modulus).toNat

theorem Storage.wholeOfWord_emod (s : Storage) (w : UInt64) :
    s.wholeOfWord w % s.modulus = (w.toNat % s.modulus : Nat) := by
  unfold wholeOfWord
  dsimp only
  split
  · rw [Int.sub_emod_right, ← Int.natCast_emod, Nat.mod_mod]
  · rw [← Int.natCast_emod, Nat.mod_mod]

theorem Storage.code_read (s : Storage) (w : UInt64) :
    (s.read w).code s = w.toNat % s.modulus := by
  cases s with
  | float64 => exact (Nat.mod_eq_of_lt w.toNat_lt).symm
  | _ => simp only [read, Scalar.code, wholeOfWord_emod, Int.toNat_natCast]

/-- Whether bytes are those of a scalar of a storage type, the least significant first. -/
def Storage.IsEncoding (s : Storage) (x : Scalar) (bytes : List UInt8) : Prop :=
  bytes.length = s.width ∧ littleEndian bytes = x.code s

theorem Storage.isEncoding_bytes (s : Storage) (w : UInt64) :
    s.IsEncoding (s.read w) (s.bytes w) := by
  refine ⟨s.length_bytes w, ?_⟩
  rw [littleEndian_bytes, code_read]

namespace Buffer

variable {b b' : Buffer} {row column : Nat} {d : Dimension}

theorem word_of_getElem? (h : b.schema.dimensions[column]? = some d) (row : Nat) :
    b.word d row = b.cell column row :=
  word_eq_cell (Schema.columnOf?_eq_some_iff.mpr h) row

theorem rowBytes_eq_flatMap (b : Buffer) (row : Nat) :
    b.rowBytes row = b.schema.dimensions.flatMap fun d => d.storage.bytes (b.word d row) := by
  have hcell : ∀ c ∈ b.schema.dimensions.zipIdx,
      c.1.storage.bytes (b.cell c.2 row) = c.1.storage.bytes (b.word c.1 row) := by
    intro c hmem
    rw [word_of_getElem? (List.mem_zipIdx_iff_getElem?.mp hmem)]
  have hfirst := List.flatMap_map Prod.fst (fun d => d.storage.bytes (b.word d row))
    b.schema.dimensions.zipIdx
  rw [List.zipIdx_map_fst] at hfirst
  rw [hfirst, rowBytes, List.flatMap_def, List.map_congr_left hcell, ← List.flatMap_def]

theorem length_flatMap_bytes (b : Buffer) (row : Nat) (ds : List Dimension) :
    (ds.flatMap fun d => d.storage.bytes (b.word d row)).length = (ds.map Dimension.width).sum := by
  simp only [List.length_flatMap, Storage.length_bytes]
  rfl

theorem length_rowBytes (b : Buffer) (row : Nat) : (b.rowBytes row).length = b.schema.byteSize := by
  rw [rowBytes_eq_flatMap, length_flatMap_bytes, Schema.byteSize_eq_sum]

theorem length_flatMap_rowBytes (b : Buffer) (n : Nat) :
    ((List.range n).flatMap b.rowBytes).length = n * b.schema.byteSize := by
  simp only [List.length_flatMap, length_rowBytes, List.map_const', List.sum_replicate_nat,
    List.length_range]

theorem length_bytes (b : Buffer) : b.bytes.length = b.count * b.schema.byteSize :=
  b.length_flatMap_rowBytes b.count

/-- The bytes of a cell stand behind those of the rows before it and of the dimensions before it. -/
theorem take_drop_bytes (hrow : row < b.count) (hd : b.schema.dimensions[column]? = some d) :
    (b.bytes.drop (row * b.schema.byteSize + b.schema.offset column)).take d.width =
      d.storage.bytes (b.word d row) := by
  have hat : (List.range b.count)[row]? = some row := by simp [hrow]
  obtain ⟨rows, hrows⟩ := exists_flatMap_split hat b.rowBytes
  obtain ⟨cells, hcells⟩ :=
    exists_flatMap_split hd fun d => d.storage.bytes (b.word d row)
  rw [← rowBytes_eq_flatMap] at hcells
  have hbefore : (List.range b.count).take row = List.range row := by
    rw [List.take_range, Nat.min_eq_left (Nat.le_of_lt hrow)]
  rw [bytes, hrows, hcells, hbefore]
  simp only [List.append_assoc]
  rw [← List.append_assoc, List.drop_left', List.take_left']
  · exact Storage.length_bytes ..
  · rw [List.length_append, length_flatMap_rowBytes, length_flatMap_bytes, Schema.offset]

theorem getElem?_bytes {i : Nat} (hrow : row < b.count)
    (hd : b.schema.dimensions[column]? = some d) (hi : i < d.width) :
    b.bytes[row * b.schema.byteSize + b.schema.offset column + i]? =
      (d.storage.bytes (b.word d row))[i]? := by
  rw [← take_drop_bytes hrow hd, List.getElem?_take_of_lt hi, List.getElem?_drop]

theorem exists_cell_of_lt {k : Nat} (hk : k < b.bytes.length) :
    ∃ row column d i, row < b.count ∧ b.schema.dimensions[column]? = some d ∧ i < d.width ∧
      k = row * b.schema.byteSize + b.schema.offset column + i := by
  rw [length_bytes] at hk
  have hpos : 0 < b.schema.byteSize := Nat.pos_of_lt_mul_left hk
  obtain ⟨column, hcovers⟩ := Schema.exists_covers_iff.mpr (Nat.mod_lt k hpos)
  obtain ⟨hcolumn, hle, hlt⟩ := Schema.covers_iff.mp hcovers
  have hd : b.schema.dimensions[column]? = some b.schema.dimensions[column] :=
    List.getElem?_eq_getElem hcolumn
  rw [Schema.offset_succ hd] at hlt
  have hdivmod := Nat.div_add_mod' k b.schema.byteSize
  refine ⟨k / b.schema.byteSize, column, _, k % b.schema.byteSize - b.schema.offset column,
    (Nat.div_lt_iff_lt_mul hpos).mpr hk, hd, by omega, by omega⟩

theorem getElem?_bytes_congr (hlayout : b'.layout = b.layout) (hcount : b'.count = b.count)
    (hd : b.schema.dimensions[column]? = some d)
    (hword : ∀ e i, ¬(i = row ∧ e = d) → b'.word e i = b.word e i) {k : Nat}
    (hk : k < row * b.schema.byteSize + b.schema.offset column ∨
      row * b.schema.byteSize + b.schema.offset column + d.width ≤ k) :
    b'.bytes[k]? = b.bytes[k]? := by
  have hschema : b'.schema = b.schema := congrArg Layout.schema hlayout
  have hlength : b'.bytes.length = b.bytes.length := by
    rw [length_bytes, length_bytes, hcount, hschema]
  rcases Nat.lt_or_ge k b.bytes.length with hlt | hge
  · obtain ⟨row', column', e, i, hrow', he, hi, rfl⟩ := exists_cell_of_lt hlt
    have hne : ¬(row' = row ∧ e = d) := by
      rintro ⟨rfl, rfl⟩
      have hcolumn : column' = column := by
        have hat := Schema.columnOf?_eq_some_iff.mpr hd
        rw [Schema.columnOf?_eq_some_iff.mpr he] at hat
        exact Option.some.inj hat
      subst hcolumn
      omega
    have hbyte := getElem?_bytes (b := b') (hcount ▸ hrow') (hschema ▸ he) hi
    rw [hschema, hword e row' hne] at hbyte
    rw [hbyte, getElem?_bytes hrow' he hi]
  · rw [List.getElem?_eq_none hge, List.getElem?_eq_none (hlength ▸ hge)]

end Buffer

end PointStream

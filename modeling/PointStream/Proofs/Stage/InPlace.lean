import PointStream.Proofs.Stage.Chain

namespace PointStream

namespace Transform

/-- The failure of a row is that of its first point that fails on its own, if there is one. -/
theorem rowFailure_cases (t : Transform) (diagnostic : String) (ps : List Point) :
    (∃ (i : Nat) (hi : i < ps.length),
      (∀ (j : Nat) (hj : j < i), ∃ q, t.project ps[j] = .ok q) ∧
        t.project ps[i] = .error (t.rowFailure diagnostic ps)) ∨
      (∀ p ∈ ps, ∃ q, t.project p = .ok q) ∧
        t.rowFailure diagnostic ps = .bufferProjection diagnostic := by
  induction ps with
  | nil => exact .inr ⟨fun _ hp => absurd hp List.not_mem_nil, rfl⟩
  | cons p ps ih =>
      cases hp : t.project p with
      | error e =>
          have hfailure : t.rowFailure diagnostic (p :: ps) = e := by
            simp only [rowFailure, hp]
          rw [hfailure]
          exact .inl ⟨0, Nat.zero_lt_succ _, fun j hj => absurd hj (Nat.not_lt_zero j), hp⟩
      | ok q =>
          have hfailure : t.rowFailure diagnostic (p :: ps) = t.rowFailure diagnostic ps := by
            simp only [rowFailure, hp]
          rw [hfailure]
          rcases ih with ⟨i, hi, hbefore, hfails⟩ | ⟨hall, hrow⟩
          · refine .inl ⟨i + 1, Nat.succ_lt_succ hi, ?_, hfails⟩
            intro j hj
            cases j with
            | zero => exact ⟨q, hp⟩
            | succ j => exact hbefore j (Nat.lt_of_succ_lt_succ hj)
          · exact .inr ⟨List.forall_mem_cons.mpr ⟨⟨q, hp⟩, hall⟩, hrow⟩

theorem exists_of_project_eq_error {t : Transform} {p : Point} {e : Failure}
    (h : t.project p = .error e) :
    ∃ cause, t.apply p = .error cause ∧ e = .pointProjection p cause.diagnostic := by
  unfold project at h
  split at h
  · cases h
  · next cause hcause =>
    cases h
    exact ⟨cause, hcause, rfl⟩

end Transform

namespace Buffer

/-- A buffer of the standard schema that holds some points. -/
def ofPoints (ps : List Point) : Buffer :=
  ((blank ⟨Schema.standard, .stage 0⟩ ps.length).putPoints ⟨0, 1, 2⟩ ps).holding ps.length

theorem reproject_cases {b b' : Buffer} {t : Transform} (h : b.reproject t = .ok b') :
    b' = b ∨ ∃ columns qs, b' = b.putPoints columns qs := by
  unfold reproject at h
  split at h
  · exact .inl (Except.ok.inj h).symm
  · split at h
    · cases h
    · next columns _ =>
      dsimp only at h
      split at h
      · next qs _ => exact .inr ⟨columns, qs, (Except.ok.inj h).symm⟩
      · cases h

theorem reproject_keeps {b b' : Buffer} {t : Transform} (h : b.reproject t = .ok b') :
    b'.layout = b.layout ∧ b'.capacity = b.capacity ∧ b'.count = b.count := by
  rcases reproject_cases h with rfl | ⟨columns, qs, rfl⟩
  · exact ⟨rfl, rfl, rfl⟩
  · simp [putPoints]

theorem holding_eq_self {b : Buffer} {n : Nat} (h : b.count = min n b.capacity) :
    b.holding n = b := by
  simp only [holding, withCount, ← h]

end Buffer

namespace Stage

variable {s : Stage} {statuses : Statuses} {b b' : Buffer} {t : Transform} {qs : List Point}
  {e : Failure}

theorem reprojectBuffer_keeps (h : s.reprojectBuffer statuses b = .ok b') :
    b'.layout = b.layout ∧ b'.capacity = b.capacity ∧ b'.count = b.count := by
  unfold reprojectBuffer at h
  split at h
  · cases h
  · exact Buffer.reproject_keeps h

theorem projectRow_of_reprojectBuffer (hcoordinates : b.schema.HasCoordinates)
    (h : s.reprojectBuffer statuses b = .ok b') :
    s.projectRow statuses b.points = .ok b'.points ∧
      ∀ d row, d ∉ coordinateDimensions ∨ b.count ≤ row → b'.word d row = b.word d row := by
  cases hrow : s.projectRow statuses b.points with
  | error e =>
      rw [reprojectBuffer_eq_error hcoordinates hrow] at h
      cases h
  | ok qs =>
      obtain ⟨_, hreproject, hoverlays⟩ := exists_reprojectBuffer hcoordinates hrow
      obtain rfl := Except.ok.inj (hreproject.symm.trans h)
      have hlength : qs.length = b.count := (length_projectRow hrow).trans b.length_points
      have hcount := (reprojectBuffer_keeps h).2.2
      refine ⟨?_, ?_⟩
      · rw [hoverlays.points_moved hcoordinates (hcount.trans hlength.symm)]
      · intro d row hother
        apply hoverlays.word_moved
        rwa [hlength]

theorem hasCoordinates_of_ofTransform (h : s.reprojectBuffer statuses b = .error e)
    (he : e.ofTransform = true) : b.schema.HasCoordinates := by
  unfold reprojectBuffer at h
  split at h
  · next ht =>
    cases h
    unfold transform at ht
    split at ht
    · cases ht
      cases he
    · split at ht
      · cases ht
        cases he
      · cases ht
  · unfold Buffer.reproject at h
    split at h
    · cases h
    · split at h
      · next hcolumns =>
        cases h
        obtain ⟨d, rfl⟩ := Buffer.coordinateColumns_eq_error hcolumns
        cases he
      · next hcolumns => exact Buffer.hasCoordinates_of_columns hcolumns

theorem exists_reprojectInPlace (hcoordinates : b.schema.HasCoordinates)
    (h : s.projectRow statuses b.points = .ok qs) :
    ∃ b', s.reprojectInPlace statuses b = (.ok (), b') ∧
      (b'.layout = b.layout ∧ b'.capacity = b.capacity ∧ b'.count = b.count) ∧
      b'.points = qs ∧
      ∀ d row, d ∉ coordinateDimensions ∨ b.count ≤ row → b'.word d row = b.word d row := by
  obtain ⟨b', hreproject, _⟩ := exists_reprojectBuffer hcoordinates h
  obtain ⟨hrow, hothers⟩ := projectRow_of_reprojectBuffer hcoordinates hreproject
  have hpoints : b'.points = qs := Except.ok.inj (hrow.symm.trans h)
  refine ⟨b', ?_, reprojectBuffer_keeps hreproject, hpoints, hothers⟩
  simp only [reprojectInPlace, hreproject]

theorem reprojectInPlace_eq_error (hcoordinates : b.schema.HasCoordinates)
    (h : s.projectRow statuses b.points = .error e) :
    s.reprojectInPlace statuses b = (.error e, b) := by
  simp only [reprojectInPlace, reprojectBuffer_eq_error hcoordinates h]

/-- Where a transform refuses the row of the points of a buffer, the filter fails and leaves the
buffer as it was. The failure is that of the first point that fails on its own. If there is none,
it names no point and tells why the row was refused. -/
theorem reprojectInPlace_of_refused_row (ht : s.transform statuses = .ok t)
    (hcoordinates : b.schema.HasCoordinates) (hcount : b.count ≠ 0)
    (hrow : t.applyAll b.points = .error e) :
    ∃ e', s.reprojectInPlace statuses b = (.error e', b) ∧ e'.ofTransform = true ∧
      ((∃ row < b.count,
          (∀ r < row, ∃ q, s.project statuses (b.point r) = .ok q) ∧
          s.project statuses (b.point row) = .error e' ∧
          ∃ cause, t.apply (b.point row) = .error cause ∧
            e' = .pointProjection (b.point row) cause.diagnostic) ∨
        (∀ r < b.count, ∃ q, s.project statuses (b.point r) = .ok q) ∧
          e' = .bufferProjection e.diagnostic) := by
  have hfails : s.projectRow statuses b.points =
      .error (t.rowFailure e.diagnostic b.points) := by
    simp only [projectRow, ht]
    split
    · next hnil => exact absurd (b.length_points ▸ congrArg List.length hnil) hcount
    · simp only [hrow]
  refine ⟨_, reprojectInPlace_eq_error hcoordinates hfails, t.ofTransform_rowFailure _ _, ?_⟩
  simp only [project_of_transform ht]
  rcases t.rowFailure_cases e.diagnostic b.points with ⟨row, hlt, hbefore, hfirst⟩ | ⟨hall, hnone⟩
  · rw [Buffer.getElem_points] at hfirst
    refine .inl ⟨row, b.length_points ▸ hlt, ?_, hfirst, Transform.exists_of_project_eq_error hfirst⟩
    intro r hr
    have hbefore := hbefore r hr
    rwa [Buffer.getElem_points] at hbefore
  · refine .inr ⟨?_, hnone⟩
    intro r hr
    exact hall _ (List.mem_map_of_mem (List.mem_range.mpr hr))

/-- Beyond a limit that only rows mind, a point that is no number is blamed for its row, although the
row is refused for another. Without such a point none is blamed. -/
theorem reprojectInPlace_beyond_bulk :
    let s := rampTo 2 "T:BULK"
    let statuses := (s.prepare Local.backend Statuses.none).2
    let blamed := Buffer.ofPoints [⟨0, 100, 0⟩, ⟨1, Double.nan, 2⟩]
    let blameless := Buffer.ofPoints [⟨0, 100, 0⟩]
    (∃ d, s.reprojectInPlace statuses blamed =
      (.error (.pointProjection ⟨1, Double.nan, 2⟩ d), blamed)) ∧
    ∃ d, s.reprojectInPlace statuses blameless = (.error (.bufferProjection d), blameless) := by
  intro s statuses blamed blameless
  obtain ⟨t, ht⟩ : ∃ t, s.transform statuses = .ok t := exists_of_isOk (by decide +kernel)
  have hrefused (b : Buffer) (h : ((s.transform statuses).toOption.map fun t =>
      (t.applyAll b.points).isOk) = some false) : ∃ e, t.applyAll b.points = .error e := by
    rw [ht] at h
    exact exists_of_not_isOk (Option.some.inj h)
  have hfine : (s.project statuses ⟨0, 100, 0⟩).isOk = true := by decide +kernel
  constructor
  · obtain ⟨e, hrow⟩ := hrefused blamed (by decide +kernel)
    obtain ⟨e', heq, _, ⟨row, hlt, _, hfails, cause, _, rfl⟩ | ⟨hall, _⟩⟩ :=
      reprojectInPlace_of_refused_row ht (by decide) (by decide) hrow
    · have hrow : row = 1 := by
        have hlt : row < 2 := hlt
        by_contra hne
        obtain rfl : row = 0 := by omega
        have hpoint : blamed.point 0 = ⟨0, 100, 0⟩ := by decide +kernel
        rw [← hpoint, hfails] at hfine
        cases hfine
      subst hrow
      have hpoint : blamed.point 1 = ⟨1, Double.nan, 2⟩ := by decide +kernel
      rw [hpoint] at heq
      exact ⟨_, heq⟩
    · obtain ⟨q, hq⟩ := hall 1 (by decide)
      have hlast : (s.project statuses (blamed.point 1)).isOk = false := by decide +kernel
      rw [hq] at hlast
      cases hlast
  · obtain ⟨e, hrow⟩ := hrefused blameless (by decide +kernel)
    obtain ⟨e', heq, _, ⟨row, hlt, _, hfails, _⟩ | ⟨_, rfl⟩⟩ :=
      reprojectInPlace_of_refused_row ht (by decide) (by decide) hrow
    · have hlt : row < 1 := hlt
      obtain rfl : row = 0 := by omega
      have hpoint : blameless.point 0 = ⟨0, 100, 0⟩ := by decide +kernel
      rw [← hpoint, hfails] at hfine
      cases hfine
    · exact ⟨_, heq⟩

end Stage

end PointStream

import BlockVector.Stacked.Comparison

/-!
# Comparing dense forms by their rows

Vectors of any two families are compared by their dense forms, for equality or up to a tolerance.
The comparison up to a tolerance has an answer for all of them, since lengths are looked at before
rows (`denseClose_eq_ok`). It is no stricter than equality, whatever the tolerance, as equal numbers
are close before the tolerance is asked for (`denseClose_of_denseEq`).

What comes out depends on the rows and not on the trees above them. So it is known of two pairs from
their parts, if their first parts have the same size: then the dense forms are cut at the same row
(`denseEq_pair`, `denseClose_pair`). None of the four parts needs to be of the family of another.
-/

namespace BlockVector.Stacked

variable {s : Scalar} {F G F' G' : Family} {eps : s.Coordinate}
  {u : Stacked s.Coordinate F} {v : Stacked s.Coordinate G}

/-- **A comparison up to a tolerance never fails.** -/
theorem denseClose_eq_ok (eps : s.Coordinate) (u : Stacked s.Coordinate F)
    (v : Stacked s.Coordinate G) :
    u.denseClose eps v = .ok (u.toDense.isEqv v.toDense (Number.close eps)) := by
  unfold denseClose
  split
  · next hlength => exact if_pos hlength
  · next hlength =>
    have hfalse : u.toDense.isEqv v.toDense (Number.close eps) = false :=
      Bool.eq_false_iff.mpr fun h => hlength (Dense.length_eq_of_isEqv h)
    rw [hfalse]

/-- Vectors of different sizes are not alike in any way that goes by their rows. -/
theorem isEqv_toDense_of_size_ne (hu : u.WellFormed) (hv : v.WellFormed) (h : u.size ≠ v.size)
    (r : s.Coordinate → s.Coordinate → Bool) : u.toDense.isEqv v.toDense r = false := by
  rw [hu.size_eq, hv.size_eq] at h
  exact Bool.eq_false_iff.mpr fun heqv => h (Dense.length_eq_of_isEqv heqv)

theorem denseClose_of_size_ne (hu : u.WellFormed) (hv : v.WellFormed) (h : u.size ≠ v.size)
    (eps : s.Coordinate) : u.denseClose eps v = .ok false := by
  rw [denseClose_eq_ok, isEqv_toDense_of_size_ne hu hv h]

/-- **Equal dense forms are close**, whatever the tolerance. -/
theorem denseClose_of_denseEq (h : u.denseEq v) (eps : s.Coordinate) :
    u.denseClose eps v = .ok true := by
  have hclose : u.toDense.isEqv v.toDense (Number.close eps) :=
    Dense.isEqv_mono (fun _ _ => Number.close_of_equal) h
  rw [denseClose_eq_ok, hclose]

/-! ## Part by part -/

variable {u' : Stacked s.Coordinate F'} {v' : Stacked s.Coordinate G'}

theorem isEqv_toDense_pair (hu : u.WellFormed) (hv : v.WellFormed) (h : u.size = v.size)
    (r : s.Coordinate → s.Coordinate → Bool) :
    (pair u u').toDense.isEqv (pair v v').toDense r
      = (u.toDense.isEqv v.toDense r && u'.toDense.isEqv v'.toDense r) := by
  rw [hu.size_eq, hv.size_eq] at h
  rw [toDense, toDense, Dense.isEqv_append h]

theorem denseEq_pair (hu : u.WellFormed) (hv : v.WellFormed) (h : u.size = v.size) :
    (pair u u').denseEq (pair v v') = (u.denseEq v && u'.denseEq v') :=
  isEqv_toDense_pair hu hv h Number.equal

theorem denseClose_pair (hu : u.WellFormed) (hv : v.WellFormed) (h : u.size = v.size) :
    (pair u u').denseClose eps (pair v v') = (do
      let first ← u.denseClose eps v
      let second ← u'.denseClose eps v'
      return first && second) := by
  rw [denseClose_eq_ok, denseClose_eq_ok, denseClose_eq_ok, isEqv_toDense_pair hu hv h]
  rfl

/--
**Comparisons by rows see the rows only, and can be done part by part.**

None of them fails, and none of them holds for vectors of different sizes. Equal dense forms are
close for every tolerance, be it negative, infinite or nan. If the first parts of two pairs have the
same size, each comparison of the pairs comes to the same comparison of their first parts and of
their second parts, of whatever families the four of them are.
-/
theorem dense_comparisons_by_rows (hu : u.WellFormed) (hv : v.WellFormed)
    (u' : Stacked s.Coordinate F') (v' : Stacked s.Coordinate G') (eps : s.Coordinate) :
    (u.denseEq v = u.toDense.isEqv v.toDense Number.equal ∧
      u.denseClose eps v = .ok (u.toDense.isEqv v.toDense (Number.close eps)) ∧
      u.denseApproxEq v = .ok (u.toDense.isEqv v.toDense (Number.close s.tolerance))) ∧
    (u.size ≠ v.size →
      u.denseEq v = false ∧ u.denseClose eps v = .ok false ∧ u.denseApproxEq v = .ok false) ∧
    (u.denseEq v → u.denseClose eps v = .ok true ∧ u.denseApproxEq v = .ok true) ∧
    (u.size = v.size →
      (pair u u').denseEq (pair v v') = (u.denseEq v && u'.denseEq v') ∧
      (pair u u').denseClose eps (pair v v') = (do
        let first ← u.denseClose eps v
        let second ← u'.denseClose eps v'
        return first && second) ∧
      (pair u u').denseApproxEq (pair v v') = (do
        let first ← u.denseApproxEq v
        let second ← u'.denseApproxEq v'
        return first && second)) := by
  refine ⟨⟨rfl, denseClose_eq_ok eps u v, denseClose_eq_ok s.tolerance u v⟩, ?_, ?_, ?_⟩
  · intro hne
    exact ⟨isEqv_toDense_of_size_ne hu hv hne Number.equal, denseClose_of_size_ne hu hv hne eps,
      denseClose_of_size_ne hu hv hne s.tolerance⟩
  · intro heq
    exact ⟨denseClose_of_denseEq heq eps, denseClose_of_denseEq heq s.tolerance⟩
  · intro hsize
    exact ⟨denseEq_pair hu hv hsize, denseClose_pair hu hv hsize, denseClose_pair hu hv hsize⟩

/-- A velocity and two gains have the same rows, and are close even with nan for a tolerance.
Columns of different kinds below them hold nan, which is not equal to itself. A single gain has
fewer rows than the velocity. -/
theorem dense_comparisons_by_rows_nan :
    (leaf [.infinite true, .zero _] :
      Stacked Scalar.single.Coordinate (.leaf .velocity)).WellFormed ∧
    (pair (leaf [.infinite true]) (leaf [.zero _]) :
      Stacked Scalar.single.Coordinate (.pair (.leaf .gain) (.leaf .gain))).WellFormed ∧
    (leaf [.infinite true, .zero _] : Stacked Scalar.single.Coordinate (.leaf .velocity)).denseClose
      .nan (pair (leaf [.infinite true]) (leaf [.zero _]) :
        Stacked Scalar.single.Coordinate (.pair (.leaf .gain) (.leaf .gain))) = .ok true ∧
    (pair (leaf [.infinite true, .zero _]) (leaf [.nan]) :
      Stacked Scalar.single.Coordinate (.pair (.leaf .velocity) (.leaf .dynamic))).denseEq
        (pair (pair (leaf [.infinite true]) (leaf [.zero _])) (leaf [.nan]) :
          Stacked Scalar.single.Coordinate
            (.pair (.pair (.leaf .gain) (.leaf .gain)) (.leaf .ragged))) = false ∧
    (leaf [.infinite true, .zero _] : Stacked Scalar.single.Coordinate (.leaf .velocity)).denseClose
      .nan (leaf [.infinite true] : Stacked Scalar.single.Coordinate (.leaf .gain))
        = .ok false := by
  have hu : (leaf [.infinite true, .zero _] :
      Stacked Scalar.single.Coordinate (.leaf .velocity)).WellFormed := rfl
  have hv : (pair (leaf [.infinite true]) (leaf [.zero _]) :
      Stacked Scalar.single.Coordinate (.pair (.leaf .gain) (.leaf .gain))).WellFormed := ⟨rfl, rfl⟩
  have hw : (leaf [.infinite true] :
      Stacked Scalar.single.Coordinate (.leaf .gain)).WellFormed := rfl
  obtain ⟨-, -, hclose, hparts⟩ := dense_comparisons_by_rows hu hv
    (leaf [.nan] : Stacked _ (.leaf .dynamic)) (leaf [.nan] : Stacked _ (.leaf .ragged)) .nan
  obtain ⟨-, hsizes, -, -⟩ := dense_comparisons_by_rows hu hw
    (leaf [] : Stacked _ (.leaf .dynamic)) (leaf [] : Stacked _ (.leaf .dynamic)) .nan
  refine ⟨hu, hv, (hclose ?_).1, ?_, (hsizes ?_).2.1⟩
  · decide
  · rw [(hparts rfl).1]
    decide
  · decide

end BlockVector.Stacked

import BlockVector.Proofs.Stacked.Building

/-!
# Cutting a pair at a given row

The parts of a pair can be read from a dense vector that is cut at a row given with it, and then the
row counts of the parts do not say where to cut. They still say what the parts accept of the pieces.

What is read has just the rows it was read from, and its first part has as many of them as were
asked for (`toDense_and_size_of_split`). Conversely, a well-formed pair whose parts have one dynamic
leaf each at most is read back from its rows and the size of its first part
(`tryFromDenseSplit_toDense`). So these two determine the pair, also where both parts are dynamic
and the rows alone would not.

Without a check a pair can also be built from a dense vector for each part. That comes to the same
as to cut where the first of the two ends, and to the same as to leave the cut to the row counts, if
they cut there (`construction_routes_agree`). Nothing is asked of the rows, so the failures agree as
well.
-/

namespace BlockVector.Stacked

variable {α : Type u} {a b : Family}

theorem toDense_and_size_of_split {xs : List α} {split : Nat} {u : Stacked α a} {w : Stacked α b}
    (h : (tryFromDenseSplit a b xs split).outcome = .ok (pair u w)) :
    (pair u w).WellFormed ∧ (pair u w).toDense = xs ∧ u.size = split := by
  obtain ⟨hle, u', w', hu, hw, hpair⟩ := outcome_tryPair_eq_ok_iff.mp h
  cases hpair
  obtain ⟨hwfu, hxu⟩ := wellFormed_and_toDense_of_ok hu
  obtain ⟨hwfw, hxw⟩ := wellFormed_and_toDense_of_ok hw
  refine ⟨⟨hwfu, hwfw⟩, ?_, ?_⟩
  · rw [toDense, hxu, hxw, List.take_append_drop]
  · rw [hwfu.size_eq, hxu, List.length_take_of_le hle]

theorem tryFromDenseSplit_toDense (ha : a.dynamicLeaves ≤ 1) (hb : b.dynamicLeaves ≤ 1)
    {u : Stacked α a} {w : Stacked α b} (h : (pair u w).WellFormed) :
    (tryFromDenseSplit a b (pair u w).toDense u.size).outcome = .ok (pair u w) := by
  obtain ⟨hu, hw⟩ := h
  refine outcome_tryPair_eq_ok_iff.mpr ⟨?_, u, w, ?_, ?_, rfl⟩
  · rw [hu.size_eq, toDense, List.length_append]
    exact Nat.le_add_right _ _
  · rw [hu.size_eq, toDense, List.take_left]
    exact tryFromDense_toDense hu ha
  · rw [hu.size_eq, toDense, List.drop_left]
    exact tryFromDense_toDense hw hb

theorem fromDenseSplit_of_outcome {xs : List α} {split : Nat} {v : Stacked α (.pair a b)}
    (h : (tryFromDenseSplit a b xs split).outcome = .ok v) :
    fromDenseSplit a b xs split = .ok v := by
  obtain ⟨hle, u, w, hu, hw, rfl⟩ := outcome_tryPair_eq_ok_iff.mp h
  exact buildPair_eq_ok_iff.mpr
    ⟨hle, u, w, fromDense_of_outcome hu, fromDense_of_outcome hw, rfl⟩

/--
**A pair is determined by its rows and by how many of them its first part has.**

Of all vectors of the pair, the checked conversion cut at `split` gives the well-formed one with the
rows `xs` whose first part has the size `split`, and it gives nothing where there is no such vector.
What it gives, the conversion without a check gives as well.
-/
theorem tryFromDenseSplit_inverse_toDense (ha : a.dynamicLeaves ≤ 1) (hb : b.dynamicLeaves ≤ 1)
    (xs : List α) (split : Nat) :
    (∀ (u : Stacked α a) (w : Stacked α b),
      (tryFromDenseSplit a b xs split).outcome = .ok (pair u w) ↔
        (pair u w).WellFormed ∧ (pair u w).toDense = xs ∧ u.size = split) ∧
    ∀ v, (tryFromDenseSplit a b xs split).outcome = .ok v → fromDenseSplit a b xs split = .ok v := by
  refine ⟨?_, fun v => fromDenseSplit_of_outcome⟩
  intro u w
  constructor
  · exact toDense_and_size_of_split
  · rintro ⟨hwf, rfl, rfl⟩
    exact tryFromDenseSplit_toDense ha hb hwf

/-- Both parts are dynamic and each has a fixed leaf, one above and one below the dynamic one. -/
theorem tryFromDenseSplit_inverse_toDense_two_dynamic :
    (Family.pair (.leaf .dynamic) (.leaf .velocity)).dynamicLeaves ≤ 1 ∧
    (Family.pair (.leaf .gain) (.leaf .ragged)).dynamicLeaves ≤ 1 ∧
    (tryFromDenseSplit (.pair (.leaf .dynamic) (.leaf .velocity))
      (.pair (.leaf .gain) (.leaf .ragged)) [1, 2, 3, 4, 5] 3).outcome
        = .ok (pair (pair (leaf [1]) (leaf [2, 3])) (pair (leaf [4]) (leaf [5]))) ∧
    fromDenseSplit (.pair (.leaf .dynamic) (.leaf .velocity))
      (.pair (.leaf .gain) (.leaf .ragged)) [1, 2, 3, 4, 5] 3
        = .ok (pair (pair (leaf [1]) (leaf [2, 3])) (pair (leaf [4]) (leaf [5]))) := by
  have ha : (Family.pair (.leaf .dynamic) (.leaf .velocity)).dynamicLeaves ≤ 1 := by decide
  have hb : (Family.pair (.leaf .gain) (.leaf .ragged)).dynamicLeaves ≤ 1 := by decide
  obtain ⟨hread, hbuild⟩ := tryFromDenseSplit_inverse_toDense ha hb [1, 2, 3, 4, 5] 3
  have hok := (hread (pair (leaf [1]) (leaf [2, 3])) (pair (leaf [4]) (leaf [5]))).mpr
    ⟨⟨⟨rfl, rfl⟩, rfl, rfl⟩, rfl, rfl⟩
  exact ⟨ha, hb, hok, hbuild _ hok⟩

/-! ## A dense vector for each part -/

theorem fromDenseSplit_append (xs ys : List α) :
    fromDenseSplit a b (xs ++ ys) xs.length = fromDensePair a b xs ys := by
  rw [fromDenseSplit, buildPair, Dense.cut_append]
  rfl

/--
**All ways to build a pair agree.**

From a dense vector for each part, from one that is cut where the first of these ends, and from one
alone, if the row counts of the parts cut it there, comes the same vector or the same failure. It is
the failure of the first part if that is not built, and else that of the second.
-/
theorem construction_routes_agree (a b : Family) (xs ys : List α) :
    fromDenseSplit a b (xs ++ ys) xs.length = fromDensePair a b xs ys ∧
    (a.staticSplit b (xs.length + ys.length) = some xs.length →
      fromDense (.pair a b) (xs ++ ys) = fromDensePair a b xs ys) ∧
    ∀ failure, fromDensePair a b xs ys = .error failure ↔
      fromDense a xs = .error failure ∨
        (∃ u, fromDense a xs = .ok u) ∧ fromDense b ys = .error failure := by
  refine ⟨fromDenseSplit_append xs ys, ?_, fun _ => fromDensePair_eq_error_iff⟩
  intro hsplit
  rw [← List.length_append] at hsplit
  rw [fromDense_pair_of_staticSplit hsplit, fromDenseSplit_append]

/-- One row is too few for the column of two below the dynamic one, which is left without a row: the
cut counted from the end stops at the front. The column fails as it does on its own. -/
theorem construction_routes_agree_short :
    (Family.leaf .dynamic).staticSplit (.leaf (.column 2)) (([] : List Nat).length + [7].length)
      = some ([] : List Nat).length ∧
    fromDense (.pair (.leaf .dynamic) (.leaf (.column 2))) ([] ++ [7])
      = fromDensePair (.leaf .dynamic) (.leaf (.column 2)) [] [7] ∧
    fromDensePair (.leaf .dynamic) (.leaf (.column 2)) [] [7] = .error (.wrongRows 2 1) := by
  obtain ⟨-, hone, hfailure⟩ :=
    construction_routes_agree (.leaf .dynamic) (.leaf (.column 2)) [] [7]
  exact ⟨rfl, hone rfl, (hfailure _).mpr (Or.inr ⟨⟨leaf [], rfl⟩, rfl⟩)⟩

end BlockVector.Stacked

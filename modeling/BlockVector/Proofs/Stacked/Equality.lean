import BlockVector.Proofs.Stacked.Regrouping
import BlockVector.Stacked.Comparison

/-!
# Equality part by part and of dense forms

`Stacked.equal` compares two vectors of a family leaf by leaf, `Stacked.denseEq` compares their
dense forms and does not see where one leaf ends and the next one begins. The first is the second
and the same rows in each leaf (`equal_iff`): then the pieces that are compared leaf by leaf lie
side by side in the dense forms.

With one dynamic leaf at most, the number of all rows says how many rows each leaf has, so the two
agree. With two, a row can go over from one dynamic leaf to the other and the dense form stays as it
is (`exists_same_toDense`).
-/

namespace BlockVector.Stacked

variable {α : Type u} {F a b : Family}

/-- **Equal part by part are just those with equal dense forms and the same rows in each leaf.** -/
theorem equal_iff {eq : α → α → Bool} {v w : Stacked α F} :
    v.equal eq w ↔ v.toDense.isEqv w.toDense eq ∧ v.leafRows = w.leafRows := by
  induction v with
  | leaf rows =>
    cases w with
    | leaf rows' =>
      rw [equal, toDense, toDense, leafRows_leaf, leafRows_leaf, List.singleton_inj]
      constructor
      · intro h
        exact ⟨h, Dense.length_eq_of_isEqv h⟩
      · exact And.left
  | pair u v ihu ihv =>
    cases w with
    | pair u' v' =>
      rw [equal, Bool.and_eq_true, ihu, ihv, toDense, toDense, leafRows_pair_eq_iff]
      constructor
      · rintro ⟨⟨hu, hrowsu⟩, hv, hrowsv⟩
        rw [Dense.isEqv_append (length_toDense_of_leafRows hrowsu), hu, hv]
        exact ⟨rfl, hrowsu, hrowsv⟩
      · rintro ⟨hdense, hrowsu, hrowsv⟩
        rw [Dense.isEqv_append (length_toDense_of_leafRows hrowsu), Bool.and_eq_true] at hdense
        exact ⟨⟨hdense.1, hrowsu⟩, hdense.2, hrowsv⟩

/-! ## Two dynamic leaves -/

/-- As many rows as a vector of the family can have, they can all be the same. -/
theorem exists_toDense_eq_replicate (x : α) {n : Nat} (hadmits : F.rows.admits n)
    (hle : F.fixedRows ≤ n) : ∃ v : Stacked α F, v.WellFormed ∧ v.toDense = List.replicate n x := by
  rw [← List.length_replicate (n := n) (a := x)] at hadmits hle
  exact exists_toDense_eq hadmits hle

theorem toDense_pair_eq_replicate {x : α} {m n : Nat} {u : Stacked α a} {w : Stacked α b}
    (hu : u.toDense = List.replicate m x) (hw : w.toDense = List.replicate n x) :
    (pair u w).toDense = List.replicate (m + n) x := by
  rw [toDense, hu, hw, List.replicate_append_replicate]

theorem exists_one_row_more (x : α) (hF : F.dynamicLeaves ≠ 0) :
    ∃ v w : Stacked α F, v.WellFormed ∧ w.WellFormed ∧
      v.toDense = List.replicate F.fixedRows x ∧
      w.toDense = List.replicate (F.fixedRows + 1) x := by
  have hadmits (n : Nat) : F.rows.admits n := by
    rw [Family.rows_eq_dynamic_iff.mpr hF]
    rfl
  obtain ⟨v, hv, hxv⟩ := exists_toDense_eq_replicate x (hadmits _) (Nat.le_refl _)
  obtain ⟨w, hw, hxw⟩ := exists_toDense_eq_replicate x (hadmits _) (Nat.le_succ _)
  exact ⟨v, w, hv, hw, hxv, hxw⟩

/-- **With two dynamic leaves, the dense form does not tell the rows of each leaf**, not even where
all rows are the same. -/
theorem exists_same_toDense (x : α) (hF : 2 ≤ F.dynamicLeaves) :
    ∃ (n : Nat) (v w : Stacked α F), v.WellFormed ∧ w.WellFormed ∧
      v.toDense = List.replicate n x ∧ w.toDense = List.replicate n x ∧
      v.leafRows ≠ w.leafRows := by
  induction F with
  | leaf l =>
    rw [Family.dynamicLeaves] at hF
    split at hF <;> omega
  | pair a b iha ihb =>
    rw [Family.dynamicLeaves] at hF
    -- Either both dynamic leaves are in one part, or each part has one of them.
    have hparts : 2 ≤ a.dynamicLeaves ∨ 2 ≤ b.dynamicLeaves ∨
        a.dynamicLeaves ≠ 0 ∧ b.dynamicLeaves ≠ 0 := by omega
    rcases hparts with ha | hb | ⟨ha, hb⟩
    · obtain ⟨n, u, u', hu, hu', hxu, hxu', hne⟩ := iha ha
      obtain ⟨w, hw, hxw⟩ := exists_toDense_eq_replicate x b.admits_fixedRows (Nat.le_refl _)
      refine ⟨_, pair u w, pair u' w, ⟨hu, hw⟩, ⟨hu', hw⟩, toDense_pair_eq_replicate hxu hxw,
        toDense_pair_eq_replicate hxu' hxw, ?_⟩
      intro hrows
      exact hne (leafRows_pair_eq_iff.mp hrows).1
    · obtain ⟨n, w, w', hw, hw', hxw, hxw', hne⟩ := ihb hb
      obtain ⟨u, hu, hxu⟩ := exists_toDense_eq_replicate x a.admits_fixedRows (Nat.le_refl _)
      refine ⟨_, pair u w, pair u w', ⟨hu, hw⟩, ⟨hu, hw'⟩, toDense_pair_eq_replicate hxu hxw,
        toDense_pair_eq_replicate hxu hxw', ?_⟩
      intro hrows
      exact hne (leafRows_pair_eq_iff.mp hrows).2
    · -- One row goes over from the first part to the second.
      obtain ⟨u, u', hu, hu', hxu, hxu'⟩ := exists_one_row_more x ha
      obtain ⟨w, w', hw, hw', hxw, hxw'⟩ := exists_one_row_more x hb
      refine ⟨_, pair u w', pair u' w, ⟨hu, hw'⟩, ⟨hu', hw⟩, toDense_pair_eq_replicate hxu hxw',
        ?_, ?_⟩
      · rw [toDense_pair_eq_replicate hxu' hxw, Nat.add_right_comm, Nat.add_assoc]
      · intro hrows
        have hlength := length_toDense_of_leafRows (leafRows_pair_eq_iff.mp hrows).1
        rw [hxu, hxu', List.length_replicate, List.length_replicate] at hlength
        omega

/-! ## The two equalities -/

/--
**Vectors are equal part by part just where their dense forms are equal and their leaves have the
same rows.**

The rows of the leaves need not be asked for in a family with one dynamic leaf at most. In a family
with two, they have to be: there are vectors with equal dense forms that are not equal part by part.
A coordinate is equal to itself unless it is nan.
-/
theorem equal_iff_denseEq (s : Scalar) (F : Family) :
    (∀ v w : Stacked s.Coordinate F,
      v.equal Number.equal w ↔ v.denseEq w ∧ v.leafRows = w.leafRows) ∧
    (F.dynamicLeaves ≤ 1 → ∀ v w : Stacked s.Coordinate F, v.WellFormed → w.WellFormed →
      (v.equal Number.equal w ↔ v.denseEq w)) ∧
    (2 ≤ F.dynamicLeaves → ∃ v w : Stacked s.Coordinate F, v.WellFormed ∧ w.WellFormed ∧
      v.denseEq w ∧ ¬ v.equal Number.equal w) ∧
    ∀ x : s.Coordinate, x.equal x ↔ x ≠ .nan := by
  refine ⟨fun v w => equal_iff, ?_, ?_, fun x => Number.equal_self_iff⟩
  · intro hone v w hv hw
    rw [equal_iff]
    refine ⟨And.left, fun hdense => ⟨hdense, ?_⟩⟩
    exact leafRows_eq_of_length_eq rfl hone hv hw (Dense.length_eq_of_isEqv hdense)
  · intro htwo
    have hzero : (Number.zero s.format).equal (Number.zero s.format) :=
      Number.equal_self_iff.mpr (Number.ofRank_ne_nan _ _ _)
    obtain ⟨n, v, w, hv, hw, hxv, hxw, hne⟩ := exists_same_toDense (Number.zero s.format) htwo
    refine ⟨v, w, hv, hw, ?_, fun h => hne (equal_iff.mp h).2⟩
    rw [denseEq, hxv, hxw]
    exact Dense.isEqv_replicate hzero n

/-- Zeros of different signs are equal, so these dense forms are, and with one dynamic leaf the
vectors are as well. With two dynamic leaves some vectors are not. -/
theorem equal_iff_denseEq_signed_zeros :
    (Family.pair (.leaf .velocity) (.leaf .dynamic)).dynamicLeaves ≤ 1 ∧
    (pair (leaf [.ofRank _ false 0, .infinite true]) (leaf [.ofRank _ true 0]) :
      Stacked Scalar.single.Coordinate (.pair (.leaf .velocity) (.leaf .dynamic))).equal Number.equal
        (pair (leaf [.ofRank _ true 0, .infinite true]) (leaf [.ofRank _ false 0])) ∧
    2 ≤ (Family.pair (.leaf .dynamic) (.pair (.leaf .gain) (.leaf .ragged))).dynamicLeaves ∧
    ∃ v w : Stacked Scalar.double.Coordinate
        (.pair (.leaf .dynamic) (.pair (.leaf .gain) (.leaf .ragged))),
      v.WellFormed ∧ w.WellFormed ∧ v.denseEq w ∧ ¬ v.equal Number.equal w := by
  have hone : (Family.pair (.leaf .velocity) (.leaf .dynamic)).dynamicLeaves ≤ 1 := by decide
  have htwo : 2 ≤ (Family.pair (.leaf .dynamic)
      (.pair (.leaf .gain) (.leaf .ragged))).dynamicLeaves := by decide
  refine ⟨hone, ?_, htwo, (equal_iff_denseEq .double _).2.2.1 htwo⟩
  refine ((equal_iff_denseEq .single _).2.1 hone _ _ ?_ ?_).mpr ?_
  · exact ⟨rfl, rfl⟩
  · exact ⟨rfl, rfl⟩
  · decide

end BlockVector.Stacked

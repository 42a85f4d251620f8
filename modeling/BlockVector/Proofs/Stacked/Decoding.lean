import BlockVector.Proofs.Family.Rows
import BlockVector.Stacked.Checked

/-!
# Decoding is the inverse of encoding

`Stacked.toDense` writes a vector as the list of its rows, and `Stacked.tryFromDense` reads such a
list back. Three rules say where a pair is cut, and each part applies its own to the piece it gets.

* What is read back is well-formed and has just the rows that were read
  (`wellFormed_and_toDense_of_ok`), and its family has one dynamic leaf at most
  (`dynamicLeaves_le_one_of_ok`).
* In a family with one dynamic leaf at most, the rows of a well-formed vector are cut where they were
  joined (`staticSplit_toDense`), so that it is read back (`tryFromDense_toDense`).
* The numbers of rows that well-formed vectors have are those that `exists_toDense_eq` names.

`tryFromDense_inverse_toDense` puts them together.
-/

namespace BlockVector.Stacked

variable {α : Type u} {F a b : Family}

/-! ## What is read back -/

/-- **A vector that was read is well-formed and has just the rows it was read from.** -/
theorem wellFormed_and_toDense_of_ok {xs : List α} {v : Stacked α F}
    (h : (tryFromDense F xs).outcome = .ok v) : v.WellFormed ∧ v.toDense = xs := by
  induction F generalizing xs with
  | leaf l =>
    obtain ⟨hrows, rfl⟩ := outcome_tryFromDense_leaf_eq_ok_iff.mp h
    exact ⟨hrows, rfl⟩
  | pair a b iha ihb =>
    obtain ⟨-, split, -, -, u, w, hu, hw, rfl⟩ := outcome_tryFromDense_pair_eq_ok_iff.mp h
    obtain ⟨hwfu, hxu⟩ := iha hu
    obtain ⟨hwfw, hxw⟩ := ihb hw
    refine ⟨⟨hwfu, hwfw⟩, ?_⟩
    rw [toDense, hxu, hxw, List.take_append_drop]

/-- Between two dynamic parts nothing says where to cut, so no vector with two dynamic leaves is
ever read. -/
theorem dynamicLeaves_le_one_of_ok {xs : List α} {v : Stacked α F}
    (h : (tryFromDense F xs).outcome = .ok v) : F.dynamicLeaves ≤ 1 := by
  induction F generalizing xs with
  | leaf l =>
    rw [Family.dynamicLeaves]
    split <;> omega
  | pair a b iha ihb =>
    obtain ⟨-, split, hsplit, -, u, w, hu, hw, -⟩ := outcome_tryFromDense_pair_eq_ok_iff.mp h
    have ha := iha hu
    have hb := ihb hw
    have hone : a.dynamicLeaves = 0 ∨ b.dynamicLeaves = 0 := by
      by_cases hda : a.dynamicLeaves = 0
      · exact Or.inl hda
      · by_cases hdb : b.dynamicLeaves = 0
        · exact Or.inr hdb
        · rw [Family.staticSplit_of_dynamic (Family.rows_eq_dynamic_iff.mpr hda)
            (Family.rows_eq_dynamic_iff.mpr hdb)] at hsplit
          cases hsplit
    rw [Family.dynamicLeaves]
    omega

/-! ## Reading back what was written -/

/-- **Two well-formed parts are cut where they were joined**, unless both are dynamic. -/
theorem staticSplit_toDense {u : Stacked α a} {w : Stacked α b} (hu : u.WellFormed)
    (hw : w.WellFormed) (hone : a.dynamicLeaves = 0 ∨ b.dynamicLeaves = 0) :
    a.staticSplit b (u.toDense ++ w.toDense).length = some u.toDense.length := by
  cases ha : a.rows with
  | fixed n => rw [Family.staticSplit_of_fixed ha, hu.length_toDense ha]
  | dynamic =>
    have hb : b.dynamicLeaves = 0 :=
      hone.resolve_left (Family.rows_eq_dynamic_iff.mp ha)
    have hb' : b.rows = .fixed b.fixedRows := Family.rows_eq_fixed_iff.mpr ⟨hb, rfl⟩
    rw [Family.staticSplit_of_dynamic_fixed ha hb', List.length_append, hw.length_toDense hb',
      Nat.add_sub_cancel]

/-- **A well-formed vector with one dynamic leaf at most is read back from its rows.** -/
theorem tryFromDense_toDense {v : Stacked α F} (hv : v.WellFormed) (hF : F.dynamicLeaves ≤ 1) :
    (tryFromDense F v.toDense).outcome = .ok v := by
  induction v with
  | leaf rows => exact outcome_tryFromDense_leaf_eq_ok_iff.mpr ⟨hv, rfl⟩
  | @pair a b u w ihu ihw =>
    obtain ⟨hu, hw⟩ := hv
    rw [Family.dynamicLeaves] at hF
    have hsplit := staticSplit_toDense hu hw (by omega)
    have hadmits : (a.rows + b.rows).admits (u.toDense ++ w.toDense).length :=
      WellFormed.admits (F := .pair a b) (v := pair u w) ⟨hu, hw⟩
    refine outcome_tryFromDense_pair_eq_ok_iff.mpr
      ⟨hadmits, _, hsplit, ?_, u, w, ?_, ?_, rfl⟩
    · rw [toDense, List.length_append]
      exact Nat.le_add_right _ _
    · rw [toDense, List.take_left]
      exact ihu hu (by omega)
    · rw [toDense, List.drop_left]
      exact ihw hw (by omega)

/-! ## How many rows there can be -/

theorem WellFormed.fixedRows_le {v : Stacked α F} (hv : v.WellFormed) :
    F.fixedRows ≤ v.toDense.length := by
  induction v with
  | @leaf l rows =>
    cases hl : l.rows with
    | fixed n =>
      rw [Family.fixedRows_leaf hl]
      exact Nat.le_of_eq (hv.length_toDense hl).symm
    | dynamic =>
      rw [Family.fixedRows_leaf_of_dynamic hl]
      exact Nat.zero_le _
  | @pair a b u w ihu ihw =>
    have hu := ihu hv.1
    have hw := ihw hv.2
    rw [Family.fixedRows, toDense, List.length_append]
    omega

/-- Every list of as many rows as the row count admits, and no fewer than the fixed leaves need, is
written for some well-formed vector. -/
theorem exists_toDense_eq {xs : List α} (hadmits : F.rows.admits xs.length)
    (hle : F.fixedRows ≤ xs.length) : ∃ v : Stacked α F, v.WellFormed ∧ v.toDense = xs := by
  induction F generalizing xs with
  | leaf l => exact ⟨leaf xs, hadmits, rfl⟩
  | pair a b iha ihb =>
    rw [Family.fixedRows] at hle
    -- A fixed first part takes its rows from the front. Otherwise the second part gets no more rows
    -- than its fixed leaves need, also where it is dynamic.
    obtain ⟨split, hsplit, hu, hw⟩ : ∃ split ≤ xs.length,
        (a.rows.admits split ∧ a.fixedRows ≤ split) ∧
          b.rows.admits (xs.length - split) ∧ b.fixedRows ≤ xs.length - split := by
      cases ha : a.rows with
      | fixed n =>
        obtain ⟨-, rfl⟩ := Family.rows_eq_fixed_iff.mp ha
        refine ⟨a.fixedRows, by omega, ⟨RowCount.fixed_admits_iff.mpr rfl, Nat.le_refl _⟩, ?_,
          by omega⟩
        cases hb : b.rows with
        | fixed m =>
          rw [Family.rows, ha, hb, RowCount.fixed_add_fixed, RowCount.fixed_admits_iff] at hadmits
          rw [RowCount.fixed_admits_iff]
          omega
        | dynamic => rfl
      | dynamic =>
        refine ⟨xs.length - b.fixedRows, by omega, ⟨rfl, by omega⟩, ?_, by omega⟩
        cases hb : b.rows with
        | fixed m =>
          obtain ⟨-, rfl⟩ := Family.rows_eq_fixed_iff.mp hb
          rw [RowCount.fixed_admits_iff]
          omega
        | dynamic => rfl
    rw [← List.length_take_of_le hsplit] at hu
    rw [← List.length_drop] at hw
    obtain ⟨u, hwfu, hxu⟩ := iha hu.1 hu.2
    obtain ⟨w, hwfw, hxw⟩ := ihb hw.1 hw.2
    refine ⟨pair u w, ⟨hwfu, hwfw⟩, ?_⟩
    rw [toDense, hxu, hxw, List.take_append_drop]

theorem exists_tryFromDense_eq_ok (hone : F.dynamicLeaves ≤ 1) {xs : List α}
    (hadmits : F.rows.admits xs.length) (hle : F.fixedRows ≤ xs.length) :
    ∃ v, (tryFromDense F xs).outcome = .ok v := by
  obtain ⟨v, hv, rfl⟩ := exists_toDense_eq hadmits hle
  exact ⟨v, tryFromDense_toDense hv hone⟩

/-- The first rows, as many as a fixed row count asks for, are accepted. -/
theorem exists_outcome_take (hF : F.dynamicLeaves = 0) {xs : List α}
    (hle : F.fixedRows ≤ xs.length) :
    ∃ v, (tryFromDense F (xs.take F.fixedRows)).outcome = .ok v := by
  have hlength : (xs.take F.fixedRows).length = F.fixedRows := List.length_take_of_le hle
  have hadmits : F.rows.admits (xs.take F.fixedRows).length := by
    rw [hlength]
    exact F.admits_fixedRows
  exact exists_tryFromDense_eq_ok (by omega) hadmits (Nat.le_of_eq hlength.symm)

/-! ## The two together -/

/--
**Reading is the inverse of writing.**

The numbers of dynamic leaves and of fixed rows decide alone whether a list of rows can be read, and
with two dynamic leaves none can. With one at most, the vector read from `xs` is the well-formed
vector that `xs` is written for.
-/
theorem tryFromDense_inverse_toDense (F : Family) (xs : List α) :
    ((∃ v, (tryFromDense F xs).outcome = .ok v) ↔
      F.dynamicLeaves = 0 ∧ xs.length = F.fixedRows ∨
        F.dynamicLeaves = 1 ∧ F.fixedRows ≤ xs.length) ∧
    (F.dynamicLeaves ≤ 1 → ∀ v : Stacked α F,
      (tryFromDense F xs).outcome = .ok v ↔ v.WellFormed ∧ v.toDense = xs) := by
  have hread (hF : F.dynamicLeaves ≤ 1) (v : Stacked α F) :
      (tryFromDense F xs).outcome = .ok v ↔ v.WellFormed ∧ v.toDense = xs := by
    refine ⟨wellFormed_and_toDense_of_ok, ?_⟩
    rintro ⟨hv, rfl⟩
    exact tryFromDense_toDense hv hF
  refine ⟨⟨?_, ?_⟩, hread⟩
  · rintro ⟨v, hok⟩
    obtain ⟨hv, rfl⟩ := wellFormed_and_toDense_of_ok hok
    have hone := dynamicLeaves_le_one_of_ok hok
    by_cases hzero : F.dynamicLeaves = 0
    · exact Or.inl ⟨hzero, hv.length_toDense (Family.rows_eq_fixed_iff.mpr ⟨hzero, rfl⟩)⟩
    · exact Or.inr ⟨by omega, hv.fixedRows_le⟩
  · intro hrows
    have hone : F.dynamicLeaves ≤ 1 := by omega
    have hadmits : F.rows.admits xs.length := by
      rw [Family.rows_eq]
      split
      · rw [RowCount.fixed_admits_iff]
        omega
      · rfl
    obtain ⟨v, hv⟩ := exists_toDense_eq hadmits (by omega)
    exact ⟨v, (hread hone v).mpr hv⟩

/-- A velocity above a dynamic column, and both above a fixed one: the cuts go from the front, from
the end, and from the front again. -/
theorem tryFromDense_inverse_toDense_nested :
    (Family.pair (.pair (.leaf .velocity) (.leaf .dynamic)) (.leaf (.column 1))).dynamicLeaves ≤ 1 ∧
    (tryFromDense (.pair (.pair (.leaf .velocity) (.leaf .dynamic)) (.leaf (.column 1)))
      [1, 2, 3, 4, 5]).outcome = .ok (pair (pair (leaf [1, 2]) (leaf [3, 4])) (leaf [5])) :=
  ⟨by decide, ((tryFromDense_inverse_toDense _ _).2 (by decide) _).mpr
    ⟨⟨⟨rfl, rfl⟩, rfl⟩, rfl⟩⟩

end BlockVector.Stacked

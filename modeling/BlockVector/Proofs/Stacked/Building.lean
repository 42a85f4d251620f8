import BlockVector.Proofs.Assignment.Effect
import BlockVector.Proofs.Stacked.Decoding

/-!
# Building with and without a check

`Stacked.fromDense` builds a vector and checks nothing beforehand, `Stacked.tryFromDense` checks the
number of rows at every part. Where the checked conversion accepts, the other one builds the same
vector (`fromDense_of_outcome`). What is built from as many rows as the row count admits holds all
of them (`toDense_of_fromDense`), since building is assigning to any vector of the family
(`outcome_assign_eq_fromDense`), and so it would have been accepted. For the same reason nothing of
the old vector is left after an assignment (`assign_forgets`).

The only rows that can be lost without a failure are those behind the last leaf. Every other leaf of
a family with a fixed row count is given just the rows it has to have (`length_of_fromDense`), and a
lenient last leaf ignores the rows it does not need (`fromDense_take`).
-/

namespace BlockVector

/-- The leaf at the bottom of a family. -/
def Family.lastLeaf : Family → Leaf
  | leaf l => l
  | pair _ b => b.lastLeaf

namespace Leaf

theorem refusal_eq_none_iff {l : Leaf} {n rows : Nat} (hl : l.rows = .fixed n) :
    l.refusal rows = none ↔ rows = n ∨ n < rows ∧ l.lenient := by
  rw [refusal, hl]
  cases hlenient : l.lenient with
  | true =>
    simp only [if_true, ite_eq_right_iff, reduceCtorEq, imp_false, and_true]
    omega
  | false => simp

theorem keep_take {α : Type u} {l : Leaf} {n : Nat} (hl : l.rows = .fixed n)
    (hlenient : l.lenient = true) (xs : List α) : l.keep (xs.take n) = l.keep xs := by
  simp [keep, hl, hlenient, List.take_take]

end Leaf

namespace Stacked

variable {α : Type u} {F a b : Family}

/-- **Whatever is built is well-formed.** -/
theorem wellFormed_of_fromDense {xs : List α} {v : Stacked α F} (h : fromDense F xs = .ok v) :
    v.WellFormed := by
  induction F generalizing xs with
  | leaf l =>
    obtain ⟨hrefusal, rfl⟩ := fromDense_leaf_eq_ok_iff.mp h
    exact Leaf.admits_length_keep hrefusal
  | pair a b iha ihb =>
    obtain ⟨-, u, w, hu, hw, rfl⟩ := buildPair_eq_ok_iff.mp h
    exact ⟨iha hu, ihb hw⟩

/-- **What the checked conversion accepts, the other one builds.** -/
theorem fromDense_of_outcome {xs : List α} {v : Stacked α F}
    (h : (tryFromDense F xs).outcome = .ok v) : fromDense F xs = .ok v := by
  induction F generalizing xs with
  | leaf l =>
    obtain ⟨hadmits, rfl⟩ := outcome_tryFromDense_leaf_eq_ok_iff.mp h
    rw [fromDense_leaf_eq_ok_iff, Leaf.keep_of_admits hadmits]
    exact ⟨Leaf.refusal_of_admits hadmits, rfl⟩
  | pair a b iha ihb =>
    obtain ⟨-, split, hsplit, hle, u, w, hu, hw, rfl⟩ :=
      outcome_tryFromDense_pair_eq_ok_iff.mp h
    rw [fromDense_pair_of_staticSplit hsplit]
    exact buildPair_eq_ok_iff.mpr ⟨hle, u, w, iha hu, ihb hw, rfl⟩

/-! ## Building is assigning -/

/-- **In a family with one dynamic leaf at most, an assignment comes to what building comes to**,
whatever vector it assigns to. -/
theorem outcome_assign_eq_fromDense (hF : F.dynamicLeaves ≤ 1) (v : Stacked α F) (xs : List α) :
    (v.assign xs).outcome = fromDense F xs := by
  induction v generalizing xs with
  | leaf rows => exact outcome_assign_leaf rows xs
  | @pair a b u w ihu ihw =>
    rw [Family.dynamicLeaves] at hF
    have hfirst : (fun ys => (u.assign ys).outcome) = fromDense a := funext (ihu (by omega))
    have hsecond : (fun ys => (w.assign ys).outcome) = fromDense b := funext (ihw (by omega))
    -- The size of the first part is not asked for.
    obtain ⟨split, hsplit⟩ := Family.exists_staticSplit (a := a) (b := b) (by omega) xs.length
    rw [outcome_assign_pair, hfirst, hsecond, cutAt, fromDense_pair_of_staticSplit hsplit, hsplit]
    rfl

/-- What is built from as many rows as the row count admits has just these rows. -/
theorem toDense_of_fromDense (hF : F.dynamicLeaves ≤ 1) {xs : List α}
    (hadmits : F.rows.admits xs.length) {v : Stacked α F} (h : fromDense F xs = .ok v) :
    v.toDense = xs := by
  -- What is built is also what an assignment to it comes to.
  rw [← outcome_assign_eq_fromDense hF v] at h
  exact toDense_of_outcome hadmits h

/--
**Where every cut is static, an assignment leaves nothing of the old vector.**

It succeeds just where a vector can be built from the same rows, and then that is the new vector,
whatever the old one was. Where no vector can be built, it stops for the same reason.
-/
theorem assign_forgets (hF : F.dynamicLeaves ≤ 1) (v : Stacked α F) (xs : List α) :
    ((v.assign xs).failure = none ↔ ∃ w, fromDense F xs = .ok w) ∧
    (∀ w, fromDense F xs = .ok w → v.assign xs = ⟨w, none⟩) ∧
    ∀ failure, (v.assign xs).failure = some failure ↔ fromDense F xs = .error failure := by
  rw [← outcome_assign_eq_fromDense hF v]
  refine ⟨⟨?_, ?_⟩, ?_, ?_⟩
  · intro hnone
    exact ⟨_, Assigned.outcome_eq_ok_iff.mpr ⟨hnone, rfl⟩⟩
  · rintro ⟨w, hw⟩
    exact (Assigned.outcome_eq_ok_iff.mp hw).1
  · intro w hw
    obtain ⟨hnone, rfl⟩ := Assigned.outcome_eq_ok_iff.mp hw
    rw [← hnone]
  · intro failure
    exact Assigned.outcome_eq_error_iff.symm

/-- Three rows of the old dynamic column are gone after four rows were assigned. One row is too few
for the gain below it, which stops the assignment as it would stop building. -/
theorem assign_forgets_column :
    (Family.pair (.pair (.leaf .dynamic) (.leaf .gain)) (.leaf (.column 2))).dynamicLeaves ≤ 1 ∧
    (pair (pair (leaf [9, 8, 7]) (leaf [6])) (leaf [5, 4]) : Stacked Nat (.pair (.pair
      (.leaf .dynamic) (.leaf .gain)) (.leaf (.column 2)))).assign [1, 2, 3, 4]
        = ⟨pair (pair (leaf [1]) (leaf [2])) (leaf [3, 4]), none⟩ ∧
    ((pair (pair (leaf [9, 8, 7]) (leaf [6])) (leaf [5, 4]) : Stacked Nat (.pair (.pair
      (.leaf .dynamic) (.leaf .gain)) (.leaf (.column 2)))).assign [1]).failure
        = some .rowOutOfRange := by
  have hone : (Family.pair (.pair (.leaf .dynamic) (.leaf .gain))
      (.leaf (.column 2))).dynamicLeaves ≤ 1 := by decide
  refine ⟨hone, (assign_forgets hone _ _).2.1 _ ?_, ((assign_forgets hone _ _).2.2 _).mpr ?_⟩
  · rfl
  · rfl

/-! ## Rows behind the last leaf -/

theorem fromDense_pair_of_fixed {n : Nat} (ha : a.rows = .fixed n) (xs : List α) :
    fromDense (.pair a b) xs = fromDenseSplit a b xs n :=
  fromDense_pair_of_staticSplit (Family.staticSplit_of_fixed ha)

/-- A family with a fixed row count is built from that many rows, or from more if its last leaf is
lenient. -/
theorem length_of_fromDense (hF : F.dynamicLeaves = 0) {xs : List α} {v : Stacked α F}
    (h : fromDense F xs = .ok v) :
    xs.length = F.fixedRows ∨ F.fixedRows < xs.length ∧ F.lastLeaf.lenient := by
  induction F generalizing xs with
  | leaf l =>
    have hl : l.rows = .fixed (Family.leaf l).fixedRows := Family.rows_eq_fixed hF
    exact (Leaf.refusal_eq_none_iff hl).mp (fromDense_leaf_eq_ok_iff.mp h).1
  | pair a b iha ihb =>
    rw [Family.dynamicLeaves] at hF
    have ha : a.rows = .fixed a.fixedRows := Family.rows_eq_fixed (by omega)
    rw [fromDense_pair_of_fixed ha] at h
    -- The first part is given just its own rows, so rows too many can only be behind them.
    obtain ⟨hle, u, w, -, hw, -⟩ := buildPair_eq_ok_iff.mp h
    rw [Family.fixedRows, Family.lastLeaf]
    have hrest := ihb (by omega) hw
    rw [List.length_drop] at hrest
    rcases hrest with hrest | ⟨hrest, hlenient⟩
    · left
      omega
    · right
      exact ⟨by omega, hlenient⟩

/-- **A family whose last leaf is lenient is built from its first rows alone.** -/
theorem fromDense_take (hF : F.dynamicLeaves = 0) (hlenient : F.lastLeaf.lenient = true)
    {xs : List α} (hle : F.fixedRows ≤ xs.length) :
    fromDense F (xs.take F.fixedRows) = fromDense F xs := by
  induction F generalizing xs with
  | leaf l =>
    have hl : l.rows = .fixed (Family.leaf l).fixedRows := Family.rows_eq_fixed hF
    have hnone (rows : Nat) (hrows : (Family.leaf l).fixedRows ≤ rows) :
        l.refusal rows = none := by
      rw [Leaf.refusal_eq_none_iff hl]
      exact (Nat.eq_or_lt_of_le hrows).imp Eq.symm fun hlt => ⟨hlt, hlenient⟩
    have hlength : (xs.take (Family.leaf l).fixedRows).length = (Family.leaf l).fixedRows :=
      List.length_take_of_le hle
    rw [fromDense, fromDense, hnone _ hle, hnone _ (Nat.le_of_eq hlength.symm),
      Leaf.keep_take hl hlenient]
  | pair a b iha ihb =>
    rw [Family.dynamicLeaves] at hF
    rw [Family.fixedRows] at hle ⊢
    have ha : a.rows = .fixed a.fixedRows := Family.rows_eq_fixed (by omega)
    -- The first part gets the same rows either way, and the second one its first rows.
    have hfirst : (xs.take (a.fixedRows + b.fixedRows)).take a.fixedRows = xs.take a.fixedRows := by
      rw [List.take_take, Nat.min_eq_left (Nat.le_add_right _ _)]
    have hsecond : (xs.take (a.fixedRows + b.fixedRows)).drop a.fixedRows
        = (xs.drop a.fixedRows).take b.fixedRows := by
      rw [List.drop_take, Nat.add_sub_cancel_left]
    have hdrop : b.fixedRows ≤ (xs.drop a.fixedRows).length := by
      rw [List.length_drop]
      omega
    rw [fromDense_pair_of_fixed ha, fromDense_pair_of_fixed ha, fromDenseSplit, fromDenseSplit,
      buildPair_of_le (by rw [List.length_take]; omega), buildPair_of_le (by omega), hfirst,
      hsecond, ihb (by omega) hlenient hdrop]

/-! ## Vectors without rows -/

theorem WellFormed.toDense_eq_nil {v : Stacked α F} (hv : v.WellFormed) (hF : F.rows = 0) :
    v.toDense = [] :=
  List.length_eq_zero_iff.mp (hv.length_toDense hF)

theorem exists_wellFormed_of_rows_eq_zero (hF : F.rows = 0) :
    ∃ v : Stacked α F, v.WellFormed := by
  obtain ⟨-, hzero⟩ := Family.rows_eq_fixed_iff.mp hF
  have hadmits : F.rows.admits ([] : List α).length := by
    rw [hF]
    rfl
  obtain ⟨v, hv, -⟩ := exists_toDense_eq hadmits (Nat.le_of_eq hzero)
  exact ⟨v, hv⟩

/-- **A family without rows has one well-formed vector**, and that is the one made without rows. -/
theorem null_eq_ok (hF : F.rows = 0) {v : Stacked α F} (hv : v.WellFormed) : null F = .ok v := by
  have hdynamic : F.dynamicLeaves = 0 := (Family.rows_eq_fixed_iff.mp hF).1
  rw [null, ← hv.toDense_eq_nil hF]
  exact fromDense_of_outcome (tryFromDense_toDense hv (by omega))

/-! ## The two together -/

theorem outcome_iff_fromDense (hF : F.dynamicLeaves ≤ 1) {xs : List α} {v : Stacked α F} :
    (tryFromDense F xs).outcome = .ok v ↔ fromDense F xs = .ok v ∧ v.size = xs.length := by
  constructor
  · intro h
    obtain ⟨hv, hxs⟩ := wellFormed_and_toDense_of_ok h
    refine ⟨fromDense_of_outcome h, ?_⟩
    rw [hv.size_eq, hxs]
  · rintro ⟨h, hsize⟩
    -- A vector never has a size that its row count does not admit.
    have hadmits : F.rows.admits xs.length := hsize ▸ admits_size v
    have hxs : v.toDense = xs := toDense_of_fromDense hF hadmits h
    rw [← hxs]
    exact tryFromDense_toDense (wellFormed_of_fromDense h) hF

/-- **What is built is what the checked conversion gives**, if not for all rows then for the first
of them. -/
theorem outcome_of_fromDense (hF : F.dynamicLeaves ≤ 1) {xs : List α} {v : Stacked α F}
    (h : fromDense F xs = .ok v) :
    (tryFromDense F xs).outcome = .ok v ∨
      F.dynamicLeaves = 0 ∧ F.fixedRows < xs.length ∧ F.lastLeaf.lenient ∧
        (tryFromDense F (xs.take F.fixedRows)).outcome = .ok v := by
  by_cases hadmits : F.rows.admits xs.length
  · refine Or.inl ((outcome_iff_fromDense hF).mpr ⟨h, ?_⟩)
    rw [(wellFormed_of_fromDense h).size_eq, toDense_of_fromDense hF hadmits h]
  · right
    cases hrows : F.rows with
    | dynamic => exact absurd (by rw [hrows]; rfl) hadmits
    | fixed n =>
      obtain ⟨hzero, rfl⟩ := Family.rows_eq_fixed_iff.mp hrows
      rw [hrows, RowCount.fixed_admits_iff] at hadmits
      obtain ⟨hlt, hlenient⟩ := (length_of_fromDense hzero h).resolve_left fun h => hadmits h.symm
      refine ⟨hzero, hlt, hlenient, ?_⟩
      -- The first rows are accepted, and what they give is also built from all of them.
      obtain ⟨w, hw⟩ := exists_outcome_take hzero (Nat.le_of_lt hlt)
      have hbuilt := fromDense_of_outcome hw
      rw [fromDense_take hzero hlenient (Nat.le_of_lt hlt), h] at hbuilt
      cases hbuilt
      exact hw

/-- **What is built holds the first rows**, as many as its size says. -/
theorem toDense_eq_take_size (hF : F.dynamicLeaves ≤ 1) {xs : List α} {v : Stacked α F}
    (h : fromDense F xs = .ok v) : v.toDense = xs.take v.size := by
  rw [(wellFormed_of_fromDense h).size_eq]
  rcases outcome_of_fromDense hF h with hall | ⟨-, hlt, -, hfirst⟩
  · rw [(wellFormed_and_toDense_of_ok hall).2, List.take_length]
  · rw [(wellFormed_and_toDense_of_ok hfirst).2, List.length_take,
      Nat.min_eq_left (Nat.le_of_lt hlt)]

/--
**Building agrees with the checked conversion, but for rows behind a lenient last leaf.**

The checked conversion gives a vector just where that vector is built and has as many rows as there
were. Everything else that is built is built from too many rows for a family with a fixed row count,
whose last leaf is lenient, and it is built from the first of them. In any case a vector that is
built is well-formed, and its rows are the first of those it was built from.
-/
theorem fromDense_agrees_with_tryFromDense (hF : F.dynamicLeaves ≤ 1) (xs : List α) :
    (∀ v, (tryFromDense F xs).outcome = .ok v ↔ fromDense F xs = .ok v ∧ v.size = xs.length) ∧
    ((∃ v, fromDense F xs = .ok v) ↔
      (∃ v, (tryFromDense F xs).outcome = .ok v) ∨
        F.dynamicLeaves = 0 ∧ F.fixedRows < xs.length ∧ F.lastLeaf.lenient) ∧
    (F.dynamicLeaves = 0 → F.fixedRows < xs.length → F.lastLeaf.lenient →
      fromDense F xs = fromDense F (xs.take F.fixedRows)) ∧
    ∀ v, fromDense F xs = .ok v → v.WellFormed ∧ v.toDense = xs.take v.size := by
  refine ⟨fun v => outcome_iff_fromDense hF, ⟨?_, ?_⟩, ?_, ?_⟩
  · rintro ⟨v, hv⟩
    rcases outcome_of_fromDense hF hv with hall | ⟨hzero, hlt, hlenient, -⟩
    · exact Or.inl ⟨v, hall⟩
    · exact Or.inr ⟨hzero, hlt, hlenient⟩
  · rintro (⟨v, hv⟩ | ⟨hzero, hlt, hlenient⟩)
    · exact ⟨v, fromDense_of_outcome hv⟩
    · obtain ⟨v, hv⟩ := exists_outcome_take hzero (Nat.le_of_lt hlt)
      rw [← fromDense_take hzero hlenient (Nat.le_of_lt hlt)]
      exact ⟨v, fromDense_of_outcome hv⟩
  · intro hzero hlt hlenient
    exact (fromDense_take hzero hlenient (Nat.le_of_lt hlt)).symm
  · intro v hv
    exact ⟨wellFormed_of_fromDense hv, toDense_eq_take_size hF hv⟩

/-- A velocity below a column of one row is built from five rows, and from three of them. -/
theorem fromDense_agrees_with_tryFromDense_velocity :
    (Family.pair (.leaf (.column 1)) (.leaf .velocity)).dynamicLeaves ≤ 1 ∧
    (∃ v, fromDense (.pair (.leaf (.column 1)) (.leaf .velocity)) [1, 2, 3, 4, 5] = .ok v ∧
      v.toDense = [1, 2, 3, 4, 5].take v.size) ∧
    fromDense (.pair (.leaf (.column 1)) (.leaf .velocity)) [1, 2, 3, 4, 5]
      = fromDense (.pair (.leaf (.column 1)) (.leaf .velocity)) [1, 2, 3] := by
  have hone : (Family.pair (.leaf (.column 1)) (.leaf .velocity)).dynamicLeaves ≤ 1 := by decide
  obtain ⟨-, hbuilt, hfirst, hrows⟩ := fromDense_agrees_with_tryFromDense hone [1, 2, 3, 4, 5]
  obtain ⟨v, hv⟩ := hbuilt.mpr (Or.inr ⟨rfl, by decide, rfl⟩)
  exact ⟨hone, ⟨v, hv, (hrows v hv).2⟩, hfirst rfl (by decide) rfl⟩

end Stacked

end BlockVector

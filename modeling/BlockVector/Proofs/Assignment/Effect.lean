import BlockVector.Proofs.Assignment.Step
import BlockVector.Proofs.Stacked.LeafRows

/-!
# The effect of an assignment

The rigid leaves of a vector keep their numbers of rows, and the flexible one takes what is left. So
an assignment needs as many rows as the rigid leaves have, and in a family with a dynamic row count
it needs nothing else (`assign_effect`).

The bound is one sum over the tree, and each cut hands it on to both parts of a pair
(`rigidWithin_pair_iff`). Hence an assignment that succeeds kept to it (`rigidWithin_of_outcome`),
and one that keeps to it succeeds (`exists_outcome`). Between two dynamic parts the first one gets
the rows it has now, and then it keeps the number of rows in each of its leaves (`leafRows_assign`).
-/

namespace BlockVector.Stacked

variable {α : Type u} {F a b : Family}

/-! ## How many rows it takes -/

/-- The rigid leaves have no more than `rows` rows together. -/
def RigidWithin (v : Stacked α F) (rows : Nat) : Prop := v.size ≤ rows + v.flexibleRows

/--
**The bound is handed on to the parts of a pair.**

The rows are enough for a pair just where the cut lies among them and each piece is enough for its
part. A first part above a dynamic one gets the rows it has. Above a fixed one it gets what that one
leaves over.
-/
theorem rigidWithin_pair_iff {u : Stacked α a} {v : Stacked α b} {rows : Nat} :
    (pair u v).RigidWithin rows ↔
      u.cutAt b rows ≤ rows ∧ u.RigidWithin (u.cutAt b rows) ∧
        v.RigidWithin (rows - u.cutAt b rows) := by
  have hflexu := flexibleRows_le_size u
  have hflexv := flexibleRows_le_size v
  unfold RigidWithin
  rw [size_pair]
  cases hb : b.rows with
  | dynamic =>
    rw [flexibleRows_pair_of_dynamic hb, cutAt_of_second_dynamic hb]
    omega
  | fixed m =>
    rw [flexibleRows_pair_of_fixed hb, flexibleRows_of_fixed hb, size_of_fixed hb]
    cases ha : a.rows with
    | fixed n =>
      rw [flexibleRows_of_fixed ha, size_of_fixed ha, cutAt_of_first_fixed ha]
      omega
    | dynamic =>
      rw [cutAt_of_dynamic_fixed ha hb]
      omega

/-- **A successful assignment had as many rows as the rigid leaves have.** -/
theorem rigidWithin_of_outcome {v w : Stacked α F} {xs : List α}
    (h : (v.assign xs).outcome = .ok w) : v.RigidWithin xs.length := by
  induction v generalizing xs with
  | @leaf l rows =>
    cases hl : l.rows with
    | fixed n =>
      rw [outcome_assign_leaf, fromDense_leaf_eq_ok_iff] at h
      have hle : n ≤ xs.length := Leaf.le_of_refusal_eq_none hl h.1
      rw [RigidWithin, size_of_fixed (F := .leaf l) hl]
      omega
    | dynamic =>
      rw [RigidWithin, flexibleRows_leaf hl, size_leaf_of_dynamic hl]
      exact Nat.le_add_left _ _
  | @pair a b u v ihu ihv =>
    obtain ⟨hcut, u', v', hu, hv, -⟩ := outcome_assign_pair_eq_ok_iff.mp h
    have hwithinu := ihu hu
    have hwithinv := ihv hv
    rw [List.length_take_of_le hcut] at hwithinu
    rw [List.length_drop] at hwithinv
    exact rigidWithin_pair_iff.mpr ⟨hcut, hwithinu, hwithinv⟩

theorem admits_cutAt (u : Stacked α a) (rows : Nat) : a.rows.admits (u.cutAt b rows) := by
  cases ha : a.rows with
  | fixed n =>
    rw [cutAt_of_first_fixed ha, RowCount.fixed_admits_iff]
  | dynamic => rfl

theorem admits_sub_cutAt {u : Stacked α a} {v : Stacked α b} {rows : Nat}
    (hadmits : (a.rows + b.rows).admits rows) (hv : v.RigidWithin (rows - u.cutAt b rows)) :
    b.rows.admits (rows - u.cutAt b rows) := by
  cases hb : b.rows with
  | dynamic => rfl
  | fixed m =>
    rw [RigidWithin, size_of_fixed hb, flexibleRows_of_fixed hb] at hv
    cases ha : a.rows with
    | fixed n =>
      rw [ha, hb, RowCount.fixed_add_fixed, RowCount.fixed_admits_iff] at hadmits
      rw [cutAt_of_first_fixed ha, RowCount.fixed_admits_iff]
      omega
    | dynamic =>
      -- The cut is `rows - m`. It leaves `m` rows unless there are fewer, and `hv` excludes that.
      rw [cutAt_of_dynamic_fixed ha hb] at hv
      rw [cutAt_of_dynamic_fixed ha hb, RowCount.fixed_admits_iff]
      omega

/-- **Where the rows are admitted and enough for the rigid leaves, an assignment succeeds.** -/
theorem exists_outcome {v : Stacked α F} {xs : List α} (hadmits : F.rows.admits xs.length)
    (hwithin : v.RigidWithin xs.length) : ∃ w, (v.assign xs).outcome = .ok w := by
  induction v generalizing xs with
  | @leaf l rows =>
    rw [outcome_assign_leaf]
    exact ⟨_, fromDense_leaf_eq_ok_iff.mpr ⟨Leaf.refusal_of_admits hadmits, rfl⟩⟩
  | @pair a b u v ihu ihv =>
    obtain ⟨hcut, hu, hv⟩ := rigidWithin_pair_iff.mp hwithin
    have hadmitsu := admits_cutAt (b := b) u xs.length
    have hadmitsv := admits_sub_cutAt hadmits hv
    rw [← List.length_take_of_le hcut] at hu hadmitsu
    rw [← List.length_drop] at hv hadmitsv
    obtain ⟨u', hu'⟩ := ihu hadmitsu hu
    obtain ⟨v', hv'⟩ := ihv hadmitsv hv
    exact ⟨pair u' v', outcome_assign_pair_eq_ok_iff.mpr ⟨hcut, u', v', hu', hv', rfl⟩⟩

theorem exists_outcome_of_size {v : Stacked α F} {xs : List α} (h : xs.length = v.size) :
    ∃ w, (v.assign xs).outcome = .ok w := by
  refine exists_outcome ?_ ?_
  · rw [h]
    exact admits_size v
  · rw [RigidWithin, h]
    exact Nat.le_add_right _ _

/-! ## What the leaves hold afterwards -/

/-- **A successful assignment takes over all rows that the row count admits, in their order.** -/
theorem toDense_of_outcome {v w : Stacked α F} {xs : List α} (hadmits : F.rows.admits xs.length)
    (h : (v.assign xs).outcome = .ok w) : w.toDense = xs := by
  induction v generalizing xs with
  | leaf rows =>
    rw [outcome_assign_leaf, fromDense_leaf_eq_ok_iff] at h
    rw [h.2, toDense, Leaf.keep_of_admits hadmits]
  | @pair a b u v ihu ihv =>
    obtain ⟨hcut, u', v', hu, hv, rfl⟩ := outcome_assign_pair_eq_ok_iff.mp h
    have hwithin := rigidWithin_of_outcome hv
    rw [List.length_drop] at hwithin
    have hadmitsu := admits_cutAt (b := b) u xs.length
    have hadmitsv := admits_sub_cutAt hadmits hwithin
    rw [← List.length_take_of_le hcut] at hadmitsu
    rw [← List.length_drop] at hadmitsv
    rw [toDense, ihu hadmitsu hu, ihv hadmitsv hv, List.take_append_drop]

theorem leafRows_assign_of_rigidEq {v : Stacked α F} (hv : v.WellFormed) {xs : List α}
    (h : xs.length = v.size) (hrigid : v.RigidEq (v.assign xs).value) :
    v.leafRows = (v.assign xs).value.leafRows := by
  obtain ⟨w, hw⟩ := exists_outcome_of_size h
  have hdense : w.toDense = xs := toDense_of_outcome (by rw [h]; exact admits_size v) hw
  rw [(Assigned.outcome_eq_ok_iff.mp hw).2] at hrigid ⊢
  exact hrigid.leafRows_eq (by rw [hdense, h, hv.size_eq])

/-- **The rigid leaves keep their numbers of rows, whether an assignment stopped or not.** -/
theorem rigidEq_assign {v : Stacked α F} (hv : v.WellFormed) (xs : List α) :
    v.RigidEq (v.assign xs).value := by
  induction v generalizing xs with
  | @leaf l rows =>
    cases hl : l.rows with
    | fixed n => exact .of_leafRows_eq (hv.leafRows_eq_of_fixed (wellFormed_assign hv xs) hl)
    | dynamic =>
      cases ((leaf rows : Stacked α (.leaf l)).assign xs).value with
      | leaf rows' => exact Or.inl hl
  | @pair a b u v ihu ihv =>
    obtain ⟨hu, hv⟩ := hv
    rcases assign_pair_cases u v xs with ⟨-, h⟩ | ⟨hcut, failure, hfailure, h⟩ | ⟨hcut, -, h⟩
    · rw [h]
      exact .of_leafRows_eq rfl
    · rw [h]
      cases hb : b.rows with
      | fixed m => exact (rigidEq_pair_of_fixed hb).mpr ⟨ihu hu _, rfl⟩
      | dynamic =>
        -- The first part was given the rows it has, so it cannot have stopped.
        rw [cutAt_of_second_dynamic hb] at hcut hfailure
        obtain ⟨w, hw⟩ := exists_outcome_of_size (List.length_take_of_le hcut)
        rw [(Assigned.outcome_eq_ok_iff.mp hw).1] at hfailure
        cases hfailure
    · rw [h]
      cases hb : b.rows with
      | fixed m =>
        -- All leaves of the second part are rigid, and well-formedness says how many rows each has.
        exact (rigidEq_pair_of_fixed hb).mpr
          ⟨ihu hu _, hv.leafRows_eq_of_fixed (wellFormed_assign hv _) hb⟩
      | dynamic =>
        rw [cutAt_of_second_dynamic hb] at hcut ⊢
        exact (rigidEq_pair_of_dynamic hb).mpr
          ⟨leafRows_assign_of_rigidEq hu (List.length_take_of_le hcut) (ihu hu _), ihv hv _⟩

/-- **A vector that is given as many rows as it has keeps the number of rows in each leaf.** -/
theorem leafRows_assign {v : Stacked α F} (hv : v.WellFormed) {xs : List α}
    (h : xs.length = v.size) : v.leafRows = (v.assign xs).value.leafRows :=
  leafRows_assign_of_rigidEq hv h (rigidEq_assign hv xs)

/-- A well-formed vector that is given its own rows stays as it is. -/
theorem assign_toDense {v : Stacked α F} (hv : v.WellFormed) : v.assign v.toDense = ⟨v, none⟩ := by
  obtain ⟨w, hw⟩ := exists_outcome_of_size (v := v) hv.size_eq.symm
  have hdense : w.toDense = v.toDense := toDense_of_outcome hv.admits hw
  have hrows := leafRows_assign hv hv.size_eq.symm
  obtain ⟨hnone, rfl⟩ := Assigned.outcome_eq_ok_iff.mp hw
  have hvalue : v = (v.assign v.toDense).value := eq_of_leafRows_of_toDense hrows hdense.symm
  calc v.assign v.toDense
      = ⟨(v.assign v.toDense).value, (v.assign v.toDense).failure⟩ := rfl
    _ = ⟨v, none⟩ := by rw [← hvalue, hnone]

/-! ## The effect as a whole -/

/--
**The effect of an assignment in a family with a dynamic row count.**

It stops just where there are fewer rows than the rigid leaves have. Otherwise the new vector has
just the rows it was given, and every leaf but the flexible one keeps its number of rows. Hence a
vector that is given its own rows stays as it is.
-/
theorem assign_effect {v : Stacked α F} (hF : F.rows = .dynamic) (hv : v.WellFormed)
    (xs : List α) :
    ((v.assign xs).failure ≠ none ↔ xs.length < v.size - v.flexibleRows) ∧
    ((v.assign xs).failure = none →
      (v.assign xs).value.toDense = xs ∧
        ∀ i, F.flexibleLeaf ≠ some i →
          (v.assign xs).value.leafRows[i]? = v.leafRows[i]?) ∧
    v.assign v.toDense = ⟨v, none⟩ := by
  have hadmits : F.rows.admits xs.length := by rw [hF]; rfl
  have hsuccess : (v.assign xs).failure = none ↔ v.RigidWithin xs.length := by
    constructor
    · intro hnone
      exact rigidWithin_of_outcome (Assigned.outcome_eq_ok_iff.mpr ⟨hnone, rfl⟩)
    · intro hwithin
      obtain ⟨w, hw⟩ := exists_outcome hadmits hwithin
      exact (Assigned.outcome_eq_ok_iff.mp hw).1
  refine ⟨?_, ?_, assign_toDense hv⟩
  · rw [Ne, hsuccess, RigidWithin]
    omega
  · intro hnone
    refine ⟨toDense_of_outcome hadmits (Assigned.outcome_eq_ok_iff.mpr ⟨hnone, rfl⟩), ?_⟩
    intro i hi
    exact ((rigidEq_assign hv xs).getElem?_leafRows hi).symm

/-- Two dynamic parts, each with two leaves. Of the four leaves the third one is flexible. Three
rows are one too few for the others, and four leave it none. -/
theorem assign_effect_two_dynamic :
    ((pair (pair (leaf [1]) (leaf [2])) (pair (leaf [3]) (leaf [4, 5])) :
      Stacked Nat (.pair (.pair (.leaf .dynamic) (.leaf .ragged))
        (.pair (.leaf .dynamic) (.leaf .velocity)))).assign [10, 20, 30]).failure ≠ none ∧
    ((pair (pair (leaf [1]) (leaf [2])) (pair (leaf [3]) (leaf [4, 5])) :
      Stacked Nat (.pair (.pair (.leaf .dynamic) (.leaf .ragged))
        (.pair (.leaf .dynamic) (.leaf .velocity)))).assign [10, 20, 30, 40]).value.toDense
      = [10, 20, 30, 40] := by
  constructor
  · refine (assign_effect ?_ ?_ _).1.mpr ?_
    · rfl
    · exact ⟨⟨rfl, rfl⟩, rfl, rfl⟩
    · decide
  · refine ((assign_effect ?_ ?_ _).2.1 ?_).1
    · rfl
    · exact ⟨⟨rfl, rfl⟩, rfl, rfl⟩
    · rfl

end BlockVector.Stacked

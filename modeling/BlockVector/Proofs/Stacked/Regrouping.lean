import BlockVector.Proofs.Family.Grouping
import BlockVector.Proofs.Stacked.Building

/-!
# Vectors of regrouped families

Two families can have the same leaves in the same order, and differ in the tree of pairs above them.
Their trees cut a dense vector at other rows and in another order, some cuts counted from the front
and some from the end. Still each leaf gets the same rows.

Unless two leaves are dynamic, the number of all rows says how many rows each leaf has
(`leafRows_eq_map`): the dynamic leaf has what the fixed ones leave over. So vectors with the same
rows in all have the same rows in each leaf (`leaves_eq_of_toDense_eq`), whatever the trees.

Composing three families gives the same leaves whichever two are composed first, also where what the
families declare is wrong (`leaves_combine_assoc`). Hence conversion does not see the difference
(`fromDense_combine_assoc`).
-/

namespace BlockVector

namespace Family

variable {F G : Family}

theorem fixedRows_eq_fixedSum (F : Family) :
    F.fixedRows = RowCount.fixedSum (F.leaves.map Leaf.rows) := by
  induction F with
  | leaf l => rfl
  | pair a b iha ihb =>
    rw [fixedRows, iha, ihb, leaves, List.map_append, RowCount.fixedSum_append]

theorem dynamicLeaves_eq_countP (F : Family) :
    F.dynamicLeaves = F.leaves.countP fun l => l.rows.isDynamic := by
  induction F with
  | leaf l => simp [dynamicLeaves, leaves, RowCount.isDynamic, List.countP_cons]
  | pair a b iha ihb => rw [dynamicLeaves, iha, ihb, leaves, List.countP_append]

theorem getLast?_leaves (F : Family) : F.leaves.getLast? = some F.lastLeaf := by
  induction F with
  | leaf l => rfl
  | pair a b _ ihb => rw [leaves, List.getLast?_append, ihb, Option.some_or, lastLeaf]

theorem fixedRows_congr (h : F.leaves = G.leaves) : F.fixedRows = G.fixedRows := by
  rw [fixedRows_eq_fixedSum, fixedRows_eq_fixedSum, h]

theorem dynamicLeaves_congr (h : F.leaves = G.leaves) : F.dynamicLeaves = G.dynamicLeaves := by
  rw [dynamicLeaves_eq_countP, dynamicLeaves_eq_countP, h]

theorem lastLeaf_congr (h : F.leaves = G.leaves) : F.lastLeaf = G.lastLeaf := by
  rw [← Option.some_inj, ← getLast?_leaves, ← getLast?_leaves, h]

theorem rows_congr (h : F.leaves = G.leaves) : F.rows = G.rows := by
  rw [rows_eq, rows_eq, fixedRows_congr h, dynamicLeaves_congr h]

/-- **Whichever two of three families are composed first, the leaves are the same.** -/
theorem leaves_combine_assoc (a b c : Family) :
    ((a.combine b).combine c).leaves = (a.combine (b.combine c)).leaves := by
  have hleft := Grouping.leaves_family (.compose (.compose (.operand a) (.operand b)) (.operand c))
  have hright := Grouping.leaves_family (.compose (.operand a) (.compose (.operand b) (.operand c)))
  exact hleft.trans hright.symm

end Family

namespace Stacked

variable {α : Type u} {F G : Family}

/-! ## How many rows each leaf has -/

/-- The rows that are left over for a dynamic leaf. With no such leaf, any number will do. -/
theorem WellFormed.exists_spare {v : Stacked α F} (hv : v.WellFormed) (hone : F.dynamicLeaves ≤ 1) :
    ∃ spare, v.toDense.length = F.fixedRows + F.dynamicLeaves * spare := by
  have hle := hv.fixedRows_le
  by_cases hzero : F.dynamicLeaves = 0
  · refine ⟨0, ?_⟩
    rw [hv.length_toDense (Family.rows_eq_fixed hzero)]
    rfl
  · refine ⟨v.toDense.length - F.fixedRows, ?_⟩
    rw [show F.dynamicLeaves = 1 by omega]
    omega

/-- **A leaf has as many rows as it must have, and a dynamic one those that are left over.** -/
theorem leafRows_eq_map {v : Stacked α F} (hv : v.WellFormed) (hone : F.dynamicLeaves ≤ 1)
    {spare : Nat} (h : v.toDense.length = F.fixedRows + F.dynamicLeaves * spare) :
    v.leafRows = F.leaves.map fun l => l.rows.orElse spare := by
  induction v with
  | @leaf l rows =>
    rw [leafRows_leaf, Family.leaves, List.map_singleton]
    cases hl : l.rows with
    | fixed n =>
      have hlength : rows.length = n := hv.length_toDense hl
      rw [hlength]
      rfl
    | dynamic =>
      have hlength : rows.length = spare := by
        simpa [toDense, Family.dynamicLeaves, Family.fixedRows_leaf_of_dynamic hl, hl] using h
      rw [hlength]
      rfl
  | @pair a b u w ihu ihw =>
    rw [toDense, List.length_append, Family.fixedRows, Family.dynamicLeaves, Nat.add_mul] at h
    rw [Family.dynamicLeaves] at hone
    -- A part without a dynamic leaf has its fixed rows, and so the other one has all the rest.
    have hparts : u.toDense.length = a.fixedRows + a.dynamicLeaves * spare ∧
        w.toDense.length = b.fixedRows + b.dynamicLeaves * spare := by
      by_cases ha : a.dynamicLeaves = 0
      · have hu := hv.1.length_toDense (Family.rows_eq_fixed ha)
        rw [ha, Nat.zero_mul] at h ⊢
        omega
      · have hb : b.dynamicLeaves = 0 := by omega
        have hw := hv.2.length_toDense (Family.rows_eq_fixed hb)
        rw [hb, Nat.zero_mul] at h ⊢
        omega
    rw [leafRows_pair, ihu hv.1 (by omega) hparts.1, ihw hv.2 (by omega) hparts.2, Family.leaves,
      List.map_append]

theorem leafRows_eq_of_length_eq (hleaves : F.leaves = G.leaves) (hone : F.dynamicLeaves ≤ 1)
    {v : Stacked α F} {w : Stacked α G} (hv : v.WellFormed) (hw : w.WellFormed)
    (h : v.toDense.length = w.toDense.length) : v.leafRows = w.leafRows := by
  obtain ⟨spare, hspare⟩ := hv.exists_spare hone
  have hrows := leafRows_eq_map hv hone hspare
  rw [h, Family.fixedRows_congr hleaves, Family.dynamicLeaves_congr hleaves] at hspare
  rw [Family.dynamicLeaves_congr hleaves] at hone
  rw [hrows, leafRows_eq_map hw hone hspare, hleaves]

/-- **The rows of a vector and the leaves of its family say what each leaf holds**, and the tree of
pairs does not matter. -/
theorem leaves_eq_of_toDense_eq (hleaves : F.leaves = G.leaves) (hone : F.dynamicLeaves ≤ 1)
    {v : Stacked α F} {w : Stacked α G} (hv : v.WellFormed) (hw : w.WellFormed)
    (h : v.toDense = w.toDense) : v.leaves = w.leaves := by
  rw [List.eq_iff_flatten_eq, flatten_leaves, flatten_leaves]
  exact ⟨h, leafRows_eq_of_length_eq hleaves hone hv hw (congrArg List.length h)⟩

/-! ## Conversions to vectors of two families -/

/-- Two conversions both fail, or they come to vectors with the same rows in each leaf. -/
def SameLeaves {ε δ : Type} : Except ε (Stacked α F) → Except δ (Stacked α G) → Prop
  | .ok v, .ok w => v.leaves = w.leaves
  | .error _, .error _ => True
  | _, _ => False

theorem sameLeaves_of_forall {ε δ : Type} {x : Except ε (Stacked α F)} {y : Except δ (Stacked α G)}
    (hx : ∀ v, x = .ok v → ∃ w, y = .ok w ∧ w.leaves = v.leaves)
    (hy : ∀ w, y = .ok w → ∃ v, x = .ok v ∧ v.leaves = w.leaves) : SameLeaves x y := by
  cases x with
  | ok v =>
    obtain ⟨w, rfl, hleaves⟩ := hx v rfl
    exact hleaves.symm
  | error e =>
    cases y with
    | ok w =>
      obtain ⟨v, hv, -⟩ := hy w rfl
      cases hv
    | error e' => trivial

theorem exists_tryFromDense_of_leaves_eq (hleaves : F.leaves = G.leaves) {xs : List α}
    {v : Stacked α F} (h : (tryFromDense F xs).outcome = .ok v) :
    ∃ w : Stacked α G, (tryFromDense G xs).outcome = .ok w ∧ w.leaves = v.leaves := by
  obtain ⟨hv, rfl⟩ := wellFormed_and_toDense_of_ok h
  have hone := dynamicLeaves_le_one_of_ok h
  have hadmits := hv.admits
  have hle := hv.fixedRows_le
  rw [Family.rows_congr hleaves] at hadmits
  rw [Family.fixedRows_congr hleaves] at hle
  rw [Family.dynamicLeaves_congr hleaves] at hone
  obtain ⟨w, hok⟩ := exists_tryFromDense_eq_ok hone hadmits hle
  obtain ⟨hw, hdense⟩ := wellFormed_and_toDense_of_ok hok
  exact ⟨w, hok, leaves_eq_of_toDense_eq hleaves.symm hone hw hv hdense⟩

theorem exists_fromDense_of_leaves_eq (hleaves : F.leaves = G.leaves) (hone : F.dynamicLeaves ≤ 1)
    {xs : List α} {v : Stacked α F} (h : fromDense F xs = .ok v) :
    ∃ w : Stacked α G, fromDense G xs = .ok w ∧ w.leaves = v.leaves := by
  rcases outcome_of_fromDense hone h with hok | ⟨hzero, hlt, hlenient, hok⟩
  · obtain ⟨w, hw, heq⟩ := exists_tryFromDense_of_leaves_eq hleaves hok
    exact ⟨w, fromDense_of_outcome hw, heq⟩
  · -- The last leaf is the same, and so it ignores the same rows.
    obtain ⟨w, hw, heq⟩ := exists_tryFromDense_of_leaves_eq hleaves hok
    rw [Family.fixedRows_congr hleaves] at hlt hw
    rw [Family.dynamicLeaves_congr hleaves] at hzero
    rw [Family.lastLeaf_congr hleaves] at hlenient
    refine ⟨w, ?_, heq⟩
    rw [← fromDense_take hzero hlenient (Nat.le_of_lt hlt)]
    exact fromDense_of_outcome hw

theorem sameLeaves_tryFromDense (hleaves : F.leaves = G.leaves) (xs : List α) :
    SameLeaves (tryFromDense F xs).outcome (tryFromDense G xs).outcome :=
  sameLeaves_of_forall (fun _ => exists_tryFromDense_of_leaves_eq hleaves)
    fun _ => exists_tryFromDense_of_leaves_eq hleaves.symm

theorem sameLeaves_fromDense (hleaves : F.leaves = G.leaves) (hone : F.dynamicLeaves ≤ 1)
    (xs : List α) : SameLeaves (fromDense F xs) (fromDense G xs) := by
  have hone' : G.dynamicLeaves ≤ 1 := Family.dynamicLeaves_congr hleaves ▸ hone
  exact sameLeaves_of_forall (fun _ => exists_fromDense_of_leaves_eq hleaves hone)
    fun _ => exists_fromDense_of_leaves_eq hleaves.symm hone'

/--
**Composition is associative for dense vectors.**

Three families come to the same leaves whichever two of them are composed first, whatever they
declare. The checked conversion accepts the same dense vectors for both groupings. If every pair of
the one says where to cut, as it does unless two leaves are dynamic, so does every pair of the
other, and vectors of both are built from the same dense vectors. Each time the leaves hold the same
rows.

The row counts of the families are exact sums here. So sums of fixed row counts are taken to fit
into a word; where one does not, there are no vectors to be converted to.
-/
theorem fromDense_combine_assoc (a b c : Family) (xs : List α) :
    ((a.combine b).combine c).leaves = (a.combine (b.combine c)).leaves ∧
    SameLeaves (tryFromDense ((a.combine b).combine c) xs).outcome
      (tryFromDense (a.combine (b.combine c)) xs).outcome ∧
    (((a.combine b).combine c).HasStaticSplits ↔ ((a.combine b).combine c).dynamicLeaves ≤ 1) ∧
    (((a.combine b).combine c).HasStaticSplits →
      (a.combine (b.combine c)).HasStaticSplits ∧
      SameLeaves (fromDense ((a.combine b).combine c) xs)
        (fromDense (a.combine (b.combine c)) xs)) := by
  have hleaves := Family.leaves_combine_assoc a b c
  refine ⟨hleaves, sameLeaves_tryFromDense hleaves xs, Family.hasStaticSplits_iff, ?_⟩
  intro hsplits
  have hone := Family.hasStaticSplits_iff.mp hsplits
  rw [Family.hasStaticSplits_iff, ← Family.dynamicLeaves_congr hleaves]
  exact ⟨hone, sameLeaves_fromDense hleaves hone xs⟩

/-- One row too many, which both groupings leave to the velocity at the end to ignore. The column of
two rows that declares to be empty is no operand of its own, and stays. -/
theorem fromDense_combine_assoc_velocity :
    (((Family.leaf .gain).combine (.pair (.leaf .falseEmpty) (.leaf (.column 1)))).combine
      (.leaf .velocity)).HasStaticSplits ∧
    SameLeaves
      (fromDense (((Family.leaf .gain).combine (.pair (.leaf .falseEmpty)
        (.leaf (.column 1)))).combine (.leaf .velocity)) [1, 2, 3, 4, 5, 6, 7])
      (.ok (pair (leaf [1]) (pair (pair (leaf [2, 3]) (leaf [4])) (leaf [5, 6]))) :
        Except Failure (Stacked Nat ((Family.leaf .gain).combine
          ((Family.pair (.leaf .falseEmpty) (.leaf (.column 1))).combine (.leaf .velocity))))) := by
  obtain ⟨-, -, hsplits, hbuilt⟩ := fromDense_combine_assoc (.leaf .gain)
    (.pair (.leaf .falseEmpty) (.leaf (.column 1))) (.leaf .velocity) [1, 2, 3, 4, 5, 6, 7]
  have hsplits := hsplits.mpr (by decide)
  exact ⟨hsplits, (hbuilt hsplits).2⟩

end Stacked

end BlockVector

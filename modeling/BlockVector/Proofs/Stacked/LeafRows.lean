import BlockVector.Stacked.Basic

/-!
# The rows of the leaves

How many rows each leaf of a vector has, and which leaf can have another number of them. A family
with a dynamic row count has one *flexible* leaf, found from the top of the tree: in a pair it lies
in the second part if that one is dynamic, and else in the first. The other leaves are *rigid*:
assignment never changes how many rows they have (`BlockVector.Proofs.Assignment.Effect`).

The rows of the leaves and the dense form determine a vector (`eq_of_leafRows_of_toDense`). So do
the rows of the rigid leaves alone, as the flexible leaf has all the others
(`RigidEq.leafRows_eq`).
-/

namespace BlockVector

/-- The place of the flexible leaf among the leaves of a family, if its row count is dynamic. -/
def Family.flexibleLeaf : Family → Option Nat
  | leaf l => if l.rows.isDynamic then some 0 else none
  | pair a b =>
    match b.rows with
    | .dynamic => b.flexibleLeaf.map (a.leaves.length + ·)
    | .fixed _ => a.flexibleLeaf

namespace Family

variable {a b F : Family}

theorem flexibleLeaf_pair_of_dynamic (hb : b.rows = .dynamic) :
    (pair a b).flexibleLeaf = b.flexibleLeaf.map (a.leaves.length + ·) := by
  simp only [flexibleLeaf, hb]

theorem flexibleLeaf_pair_of_fixed {n : Nat} (hb : b.rows = .fixed n) :
    (pair a b).flexibleLeaf = a.flexibleLeaf := by
  simp only [flexibleLeaf, hb]

/-- **A family has a flexible leaf just where its row count is dynamic.** -/
theorem isSome_flexibleLeaf (F : Family) : F.flexibleLeaf.isSome = F.rows.isDynamic := by
  induction F with
  | leaf l => cases hl : l.rows <;> simp [flexibleLeaf, rows, RowCount.isDynamic, hl]
  | pair a b iha ihb =>
    cases hb : b.rows with
    | fixed n =>
      rw [flexibleLeaf_pair_of_fixed hb, iha, rows, hb]
      cases a.rows <;> rfl
    | dynamic =>
      rw [flexibleLeaf_pair_of_dynamic hb, Option.isSome_map, ihb, rows, hb, RowCount.add_dynamic]

theorem flexibleLeaf_of_fixed {n : Nat} (hF : F.rows = .fixed n) : F.flexibleLeaf = none := by
  rw [← Option.not_isSome_iff_eq_none, isSome_flexibleLeaf, hF]
  simp [RowCount.isDynamic]

theorem exists_flexibleLeaf (hF : F.rows = .dynamic) : ∃ i, F.flexibleLeaf = some i := by
  rw [← Option.isSome_iff_exists, isSome_flexibleLeaf, hF]
  rfl

theorem length_leaves_pos (F : Family) : 0 < F.leaves.length := by
  induction F with
  | leaf l => exact Nat.zero_lt_one
  | pair a b iha ihb =>
    rw [leaves, List.length_append]
    omega

theorem flexibleLeaf_lt {i : Nat} (hi : F.flexibleLeaf = some i) : i < F.leaves.length := by
  induction F generalizing i with
  | leaf l =>
    unfold flexibleLeaf at hi
    split at hi
    · cases hi
      exact Nat.zero_lt_one
    · cases hi
  | pair a b iha ihb =>
    rw [leaves, List.length_append]
    cases hb : b.rows with
    | fixed n =>
      rw [flexibleLeaf_pair_of_fixed hb] at hi
      have := iha hi
      omega
    | dynamic =>
      rw [flexibleLeaf_pair_of_dynamic hb, Option.map_eq_some_iff] at hi
      obtain ⟨j, hj, rfl⟩ := hi
      have := ihb hj
      omega

end Family

namespace Stacked

variable {α : Type u} {F : Family}

/-- How many rows each leaf has, from top to bottom. -/
def leafRows (v : Stacked α F) : List Nat := v.leaves.map List.length

/-- How many rows the flexible leaf has; none if there is no such leaf. -/
def flexibleRows (v : Stacked α F) : Nat :=
  (F.flexibleLeaf.bind fun i => v.leafRows[i]?).getD 0

@[simp] theorem leafRows_leaf {l : Leaf} (rows : List α) :
    (leaf rows : Stacked α (.leaf l)).leafRows = [rows.length] := rfl

@[simp] theorem leafRows_pair {a b : Family} (u : Stacked α a) (w : Stacked α b) :
    (pair u w).leafRows = u.leafRows ++ w.leafRows := by
  simp [leafRows, leaves]

theorem length_leaves (v : Stacked α F) : v.leaves.length = F.leaves.length := by
  induction v with
  | leaf rows => rfl
  | pair u w ihu ihw => rw [leaves, Family.leaves, List.length_append, List.length_append, ihu, ihw]

theorem length_leafRows (v : Stacked α F) : v.leafRows.length = F.leaves.length := by
  rw [leafRows, List.length_map, length_leaves]

theorem leafRows_pair_eq_iff {a b : Family} {u u' : Stacked α a} {w w' : Stacked α b} :
    (pair u w).leafRows = (pair u' w').leafRows ↔
      u.leafRows = u'.leafRows ∧ w.leafRows = w'.leafRows := by
  rw [leafRows_pair, leafRows_pair]
  constructor
  · intro h
    exact List.append_inj h (by rw [length_leafRows, length_leafRows])
  · rintro ⟨hu, hw⟩
    rw [hu, hw]

theorem length_toDense_of_leafRows {v w : Stacked α F} (h : v.leafRows = w.leafRows) :
    v.toDense.length = w.toDense.length := by
  induction v with
  | leaf rows =>
    cases w with
    | leaf rows' => exact List.singleton_inj.mp h
  | pair u v ihu ihv =>
    cases w with
    | pair u' v' =>
      obtain ⟨hu, hv⟩ := leafRows_pair_eq_iff.mp h
      rw [toDense, toDense, List.length_append, List.length_append, ihu hu, ihv hv]

/-- **The rows of the leaves and the dense form determine a vector.** -/
theorem eq_of_leafRows_of_toDense {v w : Stacked α F} (hrows : v.leafRows = w.leafRows)
    (hdense : v.toDense = w.toDense) : v = w := by
  induction v with
  | leaf rows =>
    cases w with
    | leaf rows' => rw [show rows = rows' from hdense]
  | pair u v ihu ihv =>
    cases w with
    | pair u' v' =>
      obtain ⟨hu, hv⟩ := leafRows_pair_eq_iff.mp hrows
      obtain ⟨hu', hv'⟩ := List.append_inj hdense (length_toDense_of_leafRows hu)
      rw [ihu hu hu', ihv hv hv']

/-- In a family with a fixed row count all well-formed vectors have equally many rows in a leaf. -/
theorem WellFormed.leafRows_eq_of_fixed {v w : Stacked α F} (hv : v.WellFormed)
    (hw : w.WellFormed) {n : Nat} (hF : F.rows = .fixed n) : v.leafRows = w.leafRows := by
  induction v generalizing n with
  | leaf rows =>
    cases w with
    | leaf rows' =>
      have hlength : rows.length = n := hv.length_toDense hF
      have hlength' : rows'.length = n := hw.length_toDense hF
      rw [leafRows_leaf, leafRows_leaf, hlength, hlength']
  | @pair a b u v ihu ihv =>
    cases w with
    | pair u' v' =>
      cases ha : a.rows with
      | dynamic => simp [Family.rows, ha] at hF
      | fixed k =>
        cases hb : b.rows with
        | dynamic => simp [Family.rows, hb] at hF
        | fixed m => exact leafRows_pair_eq_iff.mpr ⟨ihu hv.1 hw.1 ha, ihv hv.2 hw.2 hb⟩

/-! ## The flexible leaf -/

theorem flexibleRows_of_fixed {n : Nat} (hF : F.rows = .fixed n) (v : Stacked α F) :
    v.flexibleRows = 0 := by
  rw [flexibleRows, Family.flexibleLeaf_of_fixed hF]
  rfl

theorem flexibleRows_leaf {l : Leaf} (hl : l.rows = .dynamic) (rows : List α) :
    (leaf rows : Stacked α (.leaf l)).flexibleRows = rows.length := by
  simp [flexibleRows, Family.flexibleLeaf, RowCount.isDynamic, hl]

theorem flexibleRows_pair_of_dynamic {a b : Family} (hb : b.rows = .dynamic) (u : Stacked α a)
    (w : Stacked α b) : (pair u w).flexibleRows = w.flexibleRows := by
  obtain ⟨j, hj⟩ := Family.exists_flexibleLeaf hb
  rw [flexibleRows, flexibleRows, Family.flexibleLeaf_pair_of_dynamic hb, hj, Option.map_some,
    Option.bind_some, Option.bind_some, leafRows_pair,
    List.getElem?_append_right (by rw [length_leafRows]; omega), length_leafRows,
    Nat.add_sub_cancel_left]

theorem flexibleRows_pair_of_fixed {a b : Family} {n : Nat} (hb : b.rows = .fixed n)
    (u : Stacked α a) (w : Stacked α b) : (pair u w).flexibleRows = u.flexibleRows := by
  rw [flexibleRows, flexibleRows, Family.flexibleLeaf_pair_of_fixed hb]
  cases hi : a.flexibleLeaf with
  | none => rfl
  | some i =>
    rw [Option.bind_some, Option.bind_some, leafRows_pair,
      List.getElem?_append_left (by rw [length_leafRows]; exact Family.flexibleLeaf_lt hi)]

theorem flexibleRows_le_size (v : Stacked α F) : v.flexibleRows ≤ v.size := by
  induction v with
  | @leaf l rows =>
    cases hl : l.rows with
    | fixed n => rw [flexibleRows_of_fixed (F := .leaf l) hl]; exact Nat.zero_le _
    | dynamic =>
      rw [flexibleRows_leaf hl]
      exact Nat.le_of_eq (size_leaf_of_dynamic hl rows).symm
  | @pair a b u w ihu ihw =>
    rw [size_pair]
    cases hb : b.rows with
    | fixed n => rw [flexibleRows_pair_of_fixed hb]; omega
    | dynamic => rw [flexibleRows_pair_of_dynamic hb]; omega

/-! ## The rigid leaves -/

/-- The rigid leaves of two vectors have the same numbers of rows. -/
def RigidEq : {F : Family} → Stacked α F → Stacked α F → Prop
  | .leaf l, leaf xs, leaf ys => l.rows = .dynamic ∨ xs.length = ys.length
  | .pair _ b, pair u v, pair u' v' =>
    match b.rows with
    | .dynamic => u.leafRows = u'.leafRows ∧ v.RigidEq v'
    | .fixed _ => u.RigidEq u' ∧ v.leafRows = v'.leafRows

theorem rigidEq_pair_of_dynamic {a b : Family} (hb : b.rows = .dynamic) {u u' : Stacked α a}
    {v v' : Stacked α b} :
    (pair u v).RigidEq (pair u' v') ↔ u.leafRows = u'.leafRows ∧ v.RigidEq v' := by
  simp only [RigidEq, hb]

theorem rigidEq_pair_of_fixed {a b : Family} {n : Nat} (hb : b.rows = .fixed n)
    {u u' : Stacked α a} {v v' : Stacked α b} :
    (pair u v).RigidEq (pair u' v') ↔ u.RigidEq u' ∧ v.leafRows = v'.leafRows := by
  simp only [RigidEq, hb]

theorem RigidEq.of_leafRows_eq {v w : Stacked α F} (h : v.leafRows = w.leafRows) :
    v.RigidEq w := by
  induction v with
  | leaf rows =>
    cases w with
    | leaf rows' => exact Or.inr (List.singleton_inj.mp h)
  | @pair a b u v ihu ihv =>
    cases w with
    | pair u' v' =>
      obtain ⟨hu, hv⟩ := leafRows_pair_eq_iff.mp h
      cases hb : b.rows with
      | dynamic => exact (rigidEq_pair_of_dynamic hb).mpr ⟨hu, ihv hv⟩
      | fixed n => exact (rigidEq_pair_of_fixed hb).mpr ⟨ihu hu, hv⟩

/-- **Every leaf but the flexible one has the same number of rows.** -/
theorem RigidEq.getElem?_leafRows {v w : Stacked α F} (h : v.RigidEq w) {i : Nat}
    (hi : F.flexibleLeaf ≠ some i) : v.leafRows[i]? = w.leafRows[i]? := by
  induction v generalizing i with
  | @leaf l rows =>
    cases w with
    | leaf rows' =>
      rcases h with hl | hlength
      · have hpos : i ≠ 0 := by
          rintro rfl
          exact hi (by simp [Family.flexibleLeaf, RowCount.isDynamic, hl])
        rw [leafRows_leaf, leafRows_leaf, List.getElem?_eq_none, List.getElem?_eq_none] <;>
          rw [List.length_singleton] <;> omega
      · rw [leafRows_leaf, leafRows_leaf, hlength]
  | @pair a b u v ihu ihv =>
    cases w with
    | pair u' v' =>
      rw [leafRows_pair, leafRows_pair]
      cases hb : b.rows with
      | dynamic =>
        -- All leaves of the first part are rigid. Behind them, the places are those of the second.
        obtain ⟨hu, hv⟩ := (rigidEq_pair_of_dynamic hb).mp h
        rw [hu]
        by_cases hlt : i < u'.leafRows.length
        · rw [List.getElem?_append_left hlt, List.getElem?_append_left hlt]
        · rw [List.getElem?_append_right (by omega), List.getElem?_append_right (by omega)]
          refine ihv hv fun hj => hi ?_
          rw [length_leafRows] at hj hlt
          rw [Family.flexibleLeaf_pair_of_dynamic hb, hj, Option.map_some]
          congr 1
          omega
      | fixed n =>
        obtain ⟨hu, hv⟩ := (rigidEq_pair_of_fixed hb).mp h
        rw [Family.flexibleLeaf_pair_of_fixed hb] at hi
        have hlength : u.leafRows.length = u'.leafRows.length := by
          rw [length_leafRows, length_leafRows]
        rw [List.getElem?_append, List.getElem?_append, hlength, hv, ihu hu hi]

theorem RigidEq.leafRows_eq {v w : Stacked α F} (h : v.RigidEq w)
    (hlength : v.toDense.length = w.toDense.length) : v.leafRows = w.leafRows := by
  induction v with
  | leaf rows =>
    cases w with
    | leaf rows' => rw [leafRows_leaf, leafRows_leaf, show rows.length = rows'.length from hlength]
  | @pair a b u v ihu ihv =>
    cases w with
    | pair u' v' =>
      rw [toDense, toDense, List.length_append, List.length_append] at hlength
      rw [leafRows_pair_eq_iff]
      cases hb : b.rows with
      | dynamic =>
        obtain ⟨hu, hv⟩ := (rigidEq_pair_of_dynamic hb).mp h
        have hsum : u.toDense.length = u'.toDense.length := length_toDense_of_leafRows hu
        exact ⟨hu, ihv hv (by omega)⟩
      | fixed n =>
        obtain ⟨hu, hv⟩ := (rigidEq_pair_of_fixed hb).mp h
        have hsum : v.toDense.length = v'.toDense.length := length_toDense_of_leafRows hv
        exact ⟨ihu hu (by omega), hv⟩

end Stacked

end BlockVector

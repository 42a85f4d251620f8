import BlockVector.Proofs.Assignment.Effect

/-!
# What an interrupted assignment leaves behind

An assignment goes through the leaves from top to bottom and stops at the first one that does not
get the rows it must have. The leaves before that one hold the first rows of the dense vector, in
their order, and those from there on are as they were (`assign_interrupted`).

The parts before the one that stopped were assigned as a whole. They hold all rows that they were
given, as a first part is given no other number of rows than its row count admits
(`toDense_assign_first`).
-/

namespace BlockVector.Stacked

variable {α : Type u} {F a b : Family}

theorem toDense_assign_first {u : Stacked α a} {xs : List α}
    (hcut : u.cutAt b xs.length ≤ xs.length)
    (h : (u.assign (xs.take (u.cutAt b xs.length))).failure = none) :
    (u.assign (xs.take (u.cutAt b xs.length))).value.toDense = xs.take (u.cutAt b xs.length) := by
  refine toDense_of_outcome ?_ (Assigned.outcome_eq_ok_iff.mpr ⟨h, rfl⟩)
  rw [List.length_take_of_le hcut]
  exact admits_cutAt u xs.length

/-- The leaves before some place hold the first rows of a dense vector, and the others are as they
were. -/
def TakenUpTo (v w : Stacked α F) (xs : List α) (place : Nat) : Prop :=
  w.leaves.drop place = v.leaves.drop place ∧ (w.leaves.take place).flatten <+: xs

theorem takenUpTo_zero (v : Stacked α F) (xs : List α) : TakenUpTo v v xs 0 :=
  ⟨rfl, List.nil_prefix⟩

theorem TakenUpTo.first {u u' : Stacked α a} {xs : List α} {split place : Nat}
    (h : TakenUpTo u u' (xs.take split) place) (hplace : place < a.leaves.length)
    (v : Stacked α b) : TakenUpTo (pair u v) (pair u' v) xs place := by
  obtain ⟨hdrop, hprefix⟩ := h
  constructor
  · rw [leaves, leaves, List.drop_append_of_le_length (by rw [length_leaves]; omega),
      List.drop_append_of_le_length (by rw [length_leaves]; omega), hdrop]
  · rw [leaves, List.take_append_of_le_length (by rw [length_leaves]; omega)]
    exact hprefix.trans (List.take_prefix split xs)

theorem TakenUpTo.second {u u' : Stacked α a} {v v' : Stacked α b} {xs : List α}
    {split place : Nat} (hu : u'.toDense = xs.take split)
    (h : TakenUpTo v v' (xs.drop split) place) :
    TakenUpTo (pair u v) (pair u' v') xs (a.leaves.length + place) := by
  obtain ⟨hdrop, hprefix⟩ := h
  constructor
  · rw [leaves, leaves, ← length_leaves u', List.drop_length_add_append, length_leaves u',
      ← length_leaves u, List.drop_length_add_append, hdrop]
  · rw [leaves, ← length_leaves u', List.take_length_add_append, List.flatten_append,
      flatten_leaves, hu]
    have hall : xs.take split ++ xs.drop split = xs := List.take_append_drop split xs
    calc xs.take split ++ (v'.leaves.take place).flatten
        <+: xs.take split ++ xs.drop split := (List.prefix_append_right_inj _).mpr hprefix
      _ = xs := hall

/-- **An assignment that stopped has a place in the list of leaves where it did.** -/
theorem exists_takenUpTo {v : Stacked α F} {xs : List α} {failure : Failure}
    (h : (v.assign xs).failure = some failure) :
    ∃ place < F.leaves.length, TakenUpTo v (v.assign xs).value xs place := by
  induction v generalizing xs failure with
  | leaf rows =>
    rcases assign_leaf_cases rows xs with ⟨failure', hassign⟩ | ⟨-, hassign⟩
    · rw [hassign]
      exact ⟨0, Family.length_leaves_pos _, takenUpTo_zero _ xs⟩
    · rw [hassign] at h
      cases h
  | @pair a b u v ihu ihv =>
    rw [Family.leaves, List.length_append]
    rcases assign_pair_cases u v xs with
      ⟨-, hassign⟩ | ⟨-, failure', hu, hassign⟩ | ⟨hcut, hu, hassign⟩
    · rw [hassign]
      exact ⟨0, Nat.add_pos_left (Family.length_leaves_pos a) _, takenUpTo_zero _ xs⟩
    · -- It stopped in the first part.
      obtain ⟨place, hplace, htaken⟩ := ihu hu
      rw [hassign]
      exact ⟨place, by omega, htaken.first hplace v⟩
    · -- It went through the first part and stopped in the second.
      rw [hassign] at h ⊢
      obtain ⟨place, hplace, htaken⟩ := ihv h
      exact ⟨a.leaves.length + place, by omega, htaken.second (toDense_assign_first hcut hu)⟩

/--
**What an interrupted assignment leaves behind.**

The vector is well-formed. From some leaf on it is as it was, and the leaves before that one hold
the first rows of the dense vector. Every leaf but the flexible one has as many rows as before.
-/
theorem assign_interrupted {v : Stacked α F} (hv : v.WellFormed) {xs : List α}
    (h : (v.assign xs).failure ≠ none) :
    (v.assign xs).value.WellFormed ∧
    (∃ place < F.leaves.length,
      (v.assign xs).value.leaves.drop place = v.leaves.drop place ∧
        ((v.assign xs).value.leaves.take place).flatten <+: xs) ∧
    ∀ i, F.flexibleLeaf ≠ some i → (v.assign xs).value.leafRows[i]? = v.leafRows[i]? := by
  obtain ⟨failure, hfailure⟩ := Option.ne_none_iff_exists'.mp h
  refine ⟨wellFormed_assign hv xs, exists_takenUpTo hfailure, ?_⟩
  intro i hi
  exact ((rigidEq_assign hv xs).getElem?_leafRows hi).symm

/-- Above a velocity that gets one row of two, three leaves have taken their rows, and the last of
them none. The velocity is as it was, and the leaf before the flexible one still has one row. -/
theorem assign_interrupted_two_dynamic :
    ((pair (pair (leaf [1]) (leaf [2])) (pair (leaf [3]) (leaf [4, 5])) :
      Stacked Nat (.pair (.pair (.leaf .dynamic) (.leaf .ragged))
        (.pair (.leaf .dynamic) (.leaf .velocity)))).assign [10, 20, 30])
      = ⟨pair (pair (leaf [10]) (leaf [20])) (pair (leaf []) (leaf [4, 5])), some .rowOutOfRange⟩ ∧
    ((pair (pair (leaf [1]) (leaf [2])) (pair (leaf [3]) (leaf [4, 5])) :
      Stacked Nat (.pair (.pair (.leaf .dynamic) (.leaf .ragged))
        (.pair (.leaf .dynamic) (.leaf .velocity)))).assign [10, 20, 30]).value.leafRows[1]?
      = some 1 := by
  refine ⟨rfl, (assign_interrupted ?_ ?_).2.2 1 ?_⟩
  · exact ⟨⟨rfl, rfl⟩, rfl, rfl⟩
  · decide
  · decide

end BlockVector.Stacked

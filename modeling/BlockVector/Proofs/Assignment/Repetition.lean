import BlockVector.Proofs.Assignment.Effect

/-!
# Assigning again

An assignment that stopped half-way has changed some leaves, and the next one starts from there. It
comes to the same as it would have without the first: all it reads of the old vector are sizes of
first parts above dynamic ones, these are sums of rows of rigid leaves, and the rigid leaves keep
their numbers of rows (`rigidEq_assign`).

The argument has two steps. Vectors with the same rows in their rigid leaves are cut at the same
places, so that an assignment comes to the same for both (`outcome_assign_congr`). What an
assignment leaves behind is such a vector (`outcome_assign_assign`).
-/

namespace BlockVector.Stacked

variable {α : Type u} {F a b : Family}

theorem size_eq_of_leafRows {v w : Stacked α F} (hv : v.WellFormed) (hw : w.WellFormed)
    (h : v.leafRows = w.leafRows) : v.size = w.size := by
  rw [hv.size_eq, hw.size_eq, length_toDense_of_leafRows h]

/-- What the rows of a first part say about the cut, its rigid leaves say. -/
theorem cutAt_congr {u u' : Stacked α a} {v v' : Stacked α b} (hu : u.WellFormed)
    (hu' : u'.WellFormed) (h : (pair u v).RigidEq (pair u' v')) (rows : Nat) :
    u.cutAt b rows = u'.cutAt b rows := by
  cases hb : b.rows with
  | dynamic =>
    obtain ⟨hrows, -⟩ := (rigidEq_pair_of_dynamic hb).mp h
    rw [cutAt_of_second_dynamic hb, cutAt_of_second_dynamic hb, size_eq_of_leafRows hu hu' hrows]
  | fixed m =>
    cases ha : a.rows with
    | fixed n => rw [cutAt_of_first_fixed ha, cutAt_of_first_fixed ha]
    | dynamic => rw [cutAt_of_dynamic_fixed ha hb, cutAt_of_dynamic_fixed ha hb]

theorem rigidEq_parts {u u' : Stacked α a} {v v' : Stacked α b}
    (h : (pair u v).RigidEq (pair u' v')) : u.RigidEq u' ∧ v.RigidEq v' := by
  cases hb : b.rows with
  | dynamic =>
    obtain ⟨hu, hv⟩ := (rigidEq_pair_of_dynamic hb).mp h
    exact ⟨.of_leafRows_eq hu, hv⟩
  | fixed m =>
    obtain ⟨hu, hv⟩ := (rigidEq_pair_of_fixed hb).mp h
    exact ⟨hu, .of_leafRows_eq hv⟩

/-- **An assignment comes to the same for vectors with the same rows in their rigid leaves.** -/
theorem outcome_assign_congr {v w : Stacked α F} (hv : v.WellFormed) (hw : w.WellFormed)
    (h : v.RigidEq w) (xs : List α) : (v.assign xs).outcome = (w.assign xs).outcome := by
  induction v generalizing xs with
  | leaf rows =>
    cases w with
    | leaf rows' => rw [outcome_assign_leaf, outcome_assign_leaf]
  | @pair a b u v ihu ihv =>
    cases w with
    | pair u' v' =>
      obtain ⟨hrigidu, hrigidv⟩ := rigidEq_parts h
      have hfirst : (fun ys => (u.assign ys).outcome) = fun ys => (u'.assign ys).outcome :=
        funext fun ys => ihu hv.1 hw.1 hrigidu ys
      have hsecond : (fun ys => (v.assign ys).outcome) = fun ys => (v'.assign ys).outcome :=
        funext fun ys => ihv hv.2 hw.2 hrigidv ys
      rw [outcome_assign_pair, outcome_assign_pair, hfirst, hsecond, cutAt_congr hv.1 hw.1 h]

/--
**An earlier assignment does not matter to a later one.**

Whether the first assignment succeeded or stopped after some parts had changed, the second one comes
to the same new vector, or stops with the same failure, as it would have on the old vector.
-/
theorem outcome_assign_assign {v : Stacked α F} (hv : v.WellFormed) (xs ys : List α) :
    ((v.assign xs).value.assign ys).outcome = (v.assign ys).outcome :=
  (outcome_assign_congr hv (wellFormed_assign hv xs) (rigidEq_assign hv xs) ys).symm

/-- The first assignment stops in the velocity, after three leaves have changed. The second one
succeeds all the same, and cuts where the old vector did. -/
theorem outcome_assign_assign_two_dynamic :
    (((pair (pair (leaf [1]) (leaf [2])) (pair (leaf [3]) (leaf [4, 5])) :
      Stacked Nat (.pair (.pair (.leaf .dynamic) (.leaf .ragged))
        (.pair (.leaf .dynamic) (.leaf .velocity)))).assign [10, 20, 30]).value.assign
        [6, 7, 8, 9, 10, 11]).outcome
      = .ok (pair (pair (leaf [6]) (leaf [7])) (pair (leaf [8, 9]) (leaf [10, 11]))) := by
  rw [outcome_assign_assign]
  · rfl
  · exact ⟨⟨rfl, rfl⟩, rfl, rfl⟩

end BlockVector.Stacked

import BlockVector.Stacked.Assignment

/-!
# What an assignment does to a vector and to its parts

An assignment leaves a vector behind and may stop with a failure. Its `outcome` is the vector if it
did not stop, and the failure if it did: the rows left behind half-way are no part of it. The
outcome of a pair is that of building one from the outcomes of its parts (`outcome_assign_pair`),
cut at `cutAt`.

What a pair leaves behind has three cases, by where the assignment stopped (`assign_pair_cases`). In
all of them it is well-formed if the vector was so (`wellFormed_assign`).
-/

namespace BlockVector

/-- What an assignment comes to: the new vector, or the reason why it stopped. -/
def Assigned.outcome {α : Type u} {F : Family} (r : Assigned α F) : Except Failure (Stacked α F) :=
  match r.failure with
  | none => .ok r.value
  | some failure => .error failure

namespace Assigned

variable {α : Type u} {F : Family} {r : Assigned α F}

theorem outcome_eq_ok_iff {w : Stacked α F} :
    r.outcome = .ok w ↔ r.failure = none ∧ r.value = w := by
  unfold outcome
  cases r.failure <;> simp

theorem outcome_eq_error_iff {failure : Failure} :
    r.outcome = .error failure ↔ r.failure = some failure := by
  unfold outcome
  cases r.failure <;> simp

end Assigned

namespace Stacked

variable {α : Type u} {F a b : Family}

/-! ## The cut -/

/-- The row at which an assignment of `rows` rows to `u` above a vector of `b` cuts them in two. -/
def cutAt (u : Stacked α a) (b : Family) (rows : Nat) : Nat := (a.staticSplit b rows).getD u.size

theorem cutAt_of_first_fixed {n rows : Nat} (ha : a.rows = .fixed n) (u : Stacked α a) :
    u.cutAt b rows = n := by
  rw [cutAt, Family.staticSplit_of_fixed ha, Option.getD_some]

/-- Above a dynamic part, the first part takes as many rows as it has. -/
theorem cutAt_of_second_dynamic {rows : Nat} (hb : b.rows = .dynamic) (u : Stacked α a) :
    u.cutAt b rows = u.size := by
  cases ha : a.rows with
  | fixed n => rw [cutAt_of_first_fixed ha, size_of_fixed ha]
  | dynamic => rw [cutAt, Family.staticSplit_of_dynamic ha hb, Option.getD_none]

theorem cutAt_of_dynamic_fixed {n rows : Nat} (ha : a.rows = .dynamic) (hb : b.rows = .fixed n)
    (u : Stacked α a) : u.cutAt b rows = rows - n := by
  rw [cutAt, Family.staticSplit_of_dynamic_fixed ha hb, Option.getD_some]

theorem assign_pair (u : Stacked α a) (v : Stacked α b) (xs : List α) :
    (pair u v).assign xs
      = if u.cutAt b xs.length ≤ xs.length then
          match (u.assign (xs.take (u.cutAt b xs.length))).failure with
          | some failure => ⟨pair (u.assign (xs.take (u.cutAt b xs.length))).value v, some failure⟩
          | none =>
            ⟨pair (u.assign (xs.take (u.cutAt b xs.length))).value
                (v.assign (xs.drop (u.cutAt b xs.length))).value,
              (v.assign (xs.drop (u.cutAt b xs.length))).failure⟩
        else ⟨pair u v, some .sliceOutOfRange⟩ := rfl

/-! ## Outcomes -/

theorem outcome_assign_leaf {l : Leaf} (rows xs : List α) :
    ((leaf rows : Stacked α (.leaf l)).assign xs).outcome = fromDense (.leaf l) xs := by
  rw [assign]
  cases fromDense (.leaf l) xs <;> rfl

/-- **An assignment to a pair comes to what building one from its assigned parts comes to.** -/
theorem outcome_assign_pair (u : Stacked α a) (v : Stacked α b) (xs : List α) :
    ((pair u v).assign xs).outcome
      = buildPair (fun ys => (u.assign ys).outcome) (fun ys => (v.assign ys).outcome) xs
          (u.cutAt b xs.length) := by
  rw [assign_pair, buildPair, Dense.cut]
  by_cases hcut : u.cutAt b xs.length ≤ xs.length
  · rw [if_pos hcut, if_pos hcut]
    cases hu : (u.assign (xs.take (u.cutAt b xs.length))).failure with
    | some failure => simp [Assigned.outcome, hu, bind, Except.bind]
    | none =>
      cases hv : (v.assign (xs.drop (u.cutAt b xs.length))).failure <;>
        simp [Assigned.outcome, hu, hv, bind, Except.bind, pure, Except.pure]
  · rw [if_neg hcut, if_neg hcut]
    rfl

theorem outcome_assign_pair_eq_ok_iff {u : Stacked α a} {v : Stacked α b} {xs : List α}
    {w : Stacked α (.pair a b)} :
    ((pair u v).assign xs).outcome = .ok w ↔
      u.cutAt b xs.length ≤ xs.length ∧
        ∃ u' v', (u.assign (xs.take (u.cutAt b xs.length))).outcome = .ok u' ∧
          (v.assign (xs.drop (u.cutAt b xs.length))).outcome = .ok v' ∧ w = pair u' v' := by
  rw [outcome_assign_pair, buildPair_eq_ok_iff]

/-! ## What is left behind -/

theorem assign_leaf_cases {l : Leaf} (rows xs : List α) :
    (∃ failure, (leaf rows : Stacked α (.leaf l)).assign xs = ⟨leaf rows, some failure⟩) ∨
      l.refusal xs.length = none ∧
        (leaf rows : Stacked α (.leaf l)).assign xs = ⟨leaf (l.keep xs), none⟩ := by
  rw [assign, fromDense]
  cases hrefusal : l.refusal xs.length with
  | some failure => exact Or.inl ⟨failure, rfl⟩
  | none => exact Or.inr ⟨rfl, rfl⟩

/--
**All that an assignment can do to a pair.**

It stops at the cut and changes nothing, it stops in the first part and leaves the second one alone,
or it assigns the first part and goes on to the second.
-/
theorem assign_pair_cases (u : Stacked α a) (v : Stacked α b) (xs : List α) :
    xs.length < u.cutAt b xs.length ∧
      (pair u v).assign xs = ⟨pair u v, some .sliceOutOfRange⟩ ∨
    (u.cutAt b xs.length ≤ xs.length ∧
      ∃ failure, (u.assign (xs.take (u.cutAt b xs.length))).failure = some failure ∧
        (pair u v).assign xs
          = ⟨pair (u.assign (xs.take (u.cutAt b xs.length))).value v, some failure⟩) ∨
    (u.cutAt b xs.length ≤ xs.length ∧
      (u.assign (xs.take (u.cutAt b xs.length))).failure = none ∧
      (pair u v).assign xs
        = ⟨pair (u.assign (xs.take (u.cutAt b xs.length))).value
            (v.assign (xs.drop (u.cutAt b xs.length))).value,
          (v.assign (xs.drop (u.cutAt b xs.length))).failure⟩) := by
  rw [assign_pair]
  by_cases hcut : u.cutAt b xs.length ≤ xs.length
  · rw [if_pos hcut]
    cases hu : (u.assign (xs.take (u.cutAt b xs.length))).failure with
    | some failure => exact Or.inr (Or.inl ⟨hcut, failure, rfl, rfl⟩)
    | none => exact Or.inr (Or.inr ⟨hcut, rfl, rfl⟩)
  · rw [if_neg hcut]
    exact Or.inl ⟨by omega, rfl⟩

/-- **An assignment leaves a well-formed vector behind, whether it stopped or not.** -/
theorem wellFormed_assign {v : Stacked α F} (hv : v.WellFormed) (xs : List α) :
    (v.assign xs).value.WellFormed := by
  induction v generalizing xs with
  | leaf rows =>
    rcases assign_leaf_cases rows xs with ⟨failure, h⟩ | ⟨hrefusal, h⟩
    · rw [h]
      exact hv
    · rw [h]
      exact Leaf.admits_length_keep hrefusal
  | @pair a b u v ihu ihv =>
    obtain ⟨hu, hv⟩ := hv
    rcases assign_pair_cases u v xs with ⟨-, h⟩ | ⟨-, failure, -, h⟩ | ⟨-, -, h⟩
    · rw [h]
      exact ⟨hu, hv⟩
    · rw [h]
      exact ⟨ihu hu _, hv⟩
    · rw [h]
      exact ⟨ihu hu _, ihv hv _⟩

end Stacked

end BlockVector

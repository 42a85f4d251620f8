import BlockVector.Family.Basic

/-!
# Stacked vectors

A vector of a family: the rows of a leaf, or one vector above another. Its dense form has all its
rows in one list.

Nothing forces a leaf with a fixed row count to hold that many rows. Those that do are `WellFormed`,
and every way to make or change a vector gives a well-formed one. For them the size, which trusts
the row count of the family, is the length of the dense form.
-/

namespace BlockVector

/-- A vector of the family `F` with coordinates in `α`. -/
inductive Stacked (α : Type u) : Family → Type u where
  | leaf {l : Leaf} (rows : List α) : Stacked α (.leaf l)
  /-- The vector `first` above the vector `second`. -/
  | pair {a b : Family} (first : Stacked α a) (second : Stacked α b) : Stacked α (.pair a b)
  deriving Repr

namespace Stacked

variable {α : Type u} {F : Family}

/-- All rows, from top to bottom. -/
def toDense : {F : Family} → Stacked α F → List α
  | _, leaf rows => rows
  | _, pair u v => u.toDense ++ v.toDense

/-- The rows of each leaf, from top to bottom. -/
def leaves : {F : Family} → Stacked α F → List (List α)
  | _, leaf rows => [rows]
  | _, pair u v => u.leaves ++ v.leaves

/-- Every leaf with a fixed row count holds that many rows. -/
def WellFormed : {F : Family} → Stacked α F → Prop
  | .leaf l, leaf rows => l.rows.admits rows.length
  | _, pair u v => u.WellFormed ∧ v.WellFormed

/-! ## Size -/

/-- The number of rows that a vector itself tells. A pair adds up the sizes of its parts, where a
part with a fixed row count is not asked. -/
def dynamicSize : {F : Family} → Stacked α F → Nat
  | _, leaf rows => rows.length
  | .pair a b, pair u v => a.rows.orElse u.dynamicSize + b.rows.orElse v.dynamicSize

/-- The number of rows: that of the family if it is fixed. -/
def size (v : Stacked α F) : Nat := F.rows.orElse v.dynamicSize

theorem size_of_fixed {n : Nat} (hF : F.rows = .fixed n) (v : Stacked α F) : v.size = n := by
  simp [size, hF, RowCount.orElse, RowCount.fixed?]

theorem size_leaf_of_dynamic {l : Leaf} (hl : l.rows = .dynamic) (rows : List α) :
    (leaf rows : Stacked α (.leaf l)).size = rows.length := by
  simp [size, dynamicSize, Family.rows, hl, RowCount.orElse, RowCount.fixed?]

@[simp] theorem size_pair {a b : Family} (u : Stacked α a) (v : Stacked α b) :
    (pair u v).size = u.size + v.size := by
  cases ha : a.rows <;> cases hb : b.rows <;>
    simp [size, dynamicSize, Family.rows, ha, hb, RowCount.orElse, RowCount.fixed?]

/-- The row count of the family admits the size of every vector. -/
theorem admits_size (v : Stacked α F) : F.rows.admits v.size := by
  cases hF : F.rows with
  | fixed n => exact RowCount.fixed_admits_iff.mpr (size_of_fixed hF v).symm
  | dynamic => rfl

theorem flatten_leaves (v : Stacked α F) : v.leaves.flatten = v.toDense := by
  induction v with
  | leaf rows => simp [leaves, toDense]
  | pair u v ihu ihv => simp [leaves, toDense, ihu, ihv]

/-- The row count of the family admits the rows of a well-formed vector. -/
theorem WellFormed.admits {v : Stacked α F} (h : v.WellFormed) :
    F.rows.admits v.toDense.length := by
  induction v with
  | leaf rows => exact h
  | @pair a b u v ihu ihv =>
    have hu := ihu h.1
    have hv := ihv h.2
    simp only [Family.rows, toDense, List.length_append]
    cases ha : a.rows <;> cases hb : b.rows <;> simp_all [RowCount.admits]

theorem WellFormed.length_toDense {v : Stacked α F} (h : v.WellFormed) {n : Nat}
    (hF : F.rows = .fixed n) : v.toDense.length = n := by
  have hv := h.admits
  rw [hF, RowCount.fixed_admits_iff] at hv
  exact hv.symm

/-- The number of rows that a well-formed vector tells is the length of its dense form. -/
theorem WellFormed.dynamicSize_eq {v : Stacked α F} (h : v.WellFormed) :
    v.dynamicSize = v.toDense.length := by
  induction v with
  | leaf rows => rfl
  | @pair a b u v ihu ihv =>
    have hu := WellFormed.admits h.1
    have hv := WellFormed.admits h.2
    simp only [dynamicSize, toDense, List.length_append, ihu h.1, ihv h.2]
    congr 1
    · cases ha : a.rows <;> simp_all [RowCount.admits, RowCount.orElse, RowCount.fixed?]
    · cases hb : b.rows <;> simp_all [RowCount.admits, RowCount.orElse, RowCount.fixed?]

/-- **The size of a well-formed vector is the length of its dense form.** -/
theorem WellFormed.size_eq {v : Stacked α F} (h : v.WellFormed) : v.size = v.toDense.length := by
  have hv := h.admits
  cases hF : F.rows <;>
    simp_all [size, RowCount.admits, RowCount.orElse, RowCount.fixed?, h.dynamicSize_eq]

/-! ## Equality -/

/-- Two vectors have equal coordinates, part by part. -/
def equal (eq : α → α → Bool) : {F : Family} → Stacked α F → Stacked α F → Bool
  | _, leaf xs, leaf ys => xs.isEqv ys eq
  | _, pair u v, pair u' v' => u.equal eq u' && v.equal eq v'

/-! ## Zero -/

/-- The vector of a family with nothing but zeros in it, and no more rows than it must have.

A pair takes the zero vectors of its parts. Of a leaf it is assumed that its own default value is
the one given here: as many zeros as its row count says, and no rows where that is dynamic. -/
def zeros (zero : α) : (F : Family) → Stacked α F
  | .leaf l => leaf (List.replicate (l.rows.orElse 0) zero)
  | .pair a b => pair (zeros zero a) (zeros zero b)

end Stacked

end BlockVector

import BlockVector.Family.Basic

/-!
# Fixed rows and dynamic leaves

The row count of a family comes down to two numbers: how many of its leaves are dynamic, and how
many rows the others have together. It is fixed just where no leaf is dynamic, and then it is the
second of the two (`rows_eq`). Which vectors a conversion accepts depends on these two alone, and
not on how the leaves are nested (`BlockVector.Proofs.Stacked.Decoding`). Every pair says where to
cut just where no more than one leaf is dynamic (`hasStaticSplits_iff`).
-/

namespace BlockVector.Family

/-- The rows that the leaves with a fixed row count have together. -/
def fixedRows : Family → Nat
  | leaf l => l.rows.orElse 0
  | pair a b => a.fixedRows + b.fixedRows

/-- How many leaves are dynamic. -/
def dynamicLeaves : Family → Nat
  | leaf l => if l.rows = .dynamic then 1 else 0
  | pair a b => a.dynamicLeaves + b.dynamicLeaves

theorem fixedRows_leaf {l : Leaf} {n : Nat} (hl : l.rows = .fixed n) : (leaf l).fixedRows = n := by
  simp [fixedRows, hl, RowCount.orElse, RowCount.fixed?]

theorem fixedRows_leaf_of_dynamic {l : Leaf} (hl : l.rows = .dynamic) : (leaf l).fixedRows = 0 := by
  simp [fixedRows, hl, RowCount.orElse, RowCount.fixed?]

/-- **The row count of a family by the numbers of its fixed rows and dynamic leaves.** -/
theorem rows_eq (F : Family) :
    F.rows = if F.dynamicLeaves = 0 then .fixed F.fixedRows else .dynamic := by
  induction F with
  | leaf l =>
    rw [dynamicLeaves]
    cases hl : l.rows with
    | fixed n => simp [rows, hl, fixedRows_leaf hl]
    | dynamic => simp [rows, hl]
  | pair a b iha ihb =>
    rw [rows, iha, ihb, dynamicLeaves, fixedRows]
    by_cases ha : a.dynamicLeaves = 0
    · by_cases hb : b.dynamicLeaves = 0
      · rw [if_pos ha, if_pos hb, if_pos (by omega), RowCount.fixed_add_fixed]
      · have h : ¬ a.dynamicLeaves + b.dynamicLeaves = 0 := by omega
        rw [if_neg hb, if_neg h, RowCount.add_dynamic]
    · have h : ¬ a.dynamicLeaves + b.dynamicLeaves = 0 := by omega
      rw [if_neg ha, if_neg h, RowCount.dynamic_add]

theorem rows_eq_dynamic_iff {F : Family} : F.rows = .dynamic ↔ F.dynamicLeaves ≠ 0 := by
  rw [rows_eq]
  split <;> simp_all

theorem rows_eq_fixed_iff {F : Family} {n : Nat} :
    F.rows = .fixed n ↔ F.dynamicLeaves = 0 ∧ F.fixedRows = n := by
  rw [rows_eq]
  split <;> simp_all

theorem rows_eq_fixed {F : Family} (h : F.dynamicLeaves = 0) : F.rows = .fixed F.fixedRows :=
  rows_eq_fixed_iff.mpr ⟨h, rfl⟩

theorem admits_fixedRows (F : Family) : F.rows.admits F.fixedRows := by
  rw [rows_eq]
  split
  · exact RowCount.fixed_admits_iff.mpr rfl
  · rfl

/-- Unless both parts of a pair are dynamic, their row counts say where to cut. -/
theorem exists_staticSplit {a b : Family} (hone : a.dynamicLeaves = 0 ∨ b.dynamicLeaves = 0)
    (rows : Nat) : ∃ split, a.staticSplit b rows = some split := by
  cases ha : a.rows with
  | fixed n => exact ⟨n, staticSplit_of_fixed ha⟩
  | dynamic =>
    have hb := rows_eq_fixed (hone.resolve_left (rows_eq_dynamic_iff.mp ha))
    exact ⟨_, staticSplit_of_dynamic_fixed ha hb⟩

/-- No pair in a family has two dynamic parts, so that every one of them says where to cut. -/
def HasStaticSplits : Family → Prop
  | leaf _ => True
  | pair a b => ¬ (a.rows = .dynamic ∧ b.rows = .dynamic) ∧ a.HasStaticSplits ∧ b.HasStaticSplits

theorem hasStaticSplits_iff {F : Family} : F.HasStaticSplits ↔ F.dynamicLeaves ≤ 1 := by
  induction F with
  | leaf l =>
    rw [HasStaticSplits, dynamicLeaves, true_iff]
    split <;> omega
  | pair a b iha ihb =>
    rw [HasStaticSplits, iha, ihb, rows_eq_dynamic_iff, rows_eq_dynamic_iff, dynamicLeaves]
    omega

end BlockVector.Family

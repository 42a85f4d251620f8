import BlockVector.Number.Basic
import BlockVector.Proofs.Stacked.Building

/-!
# Vectors of zeros

The vector of zeros of a family is made leaf by leaf: as many zeros as the leaf must have, and none
where the leaf is dynamic (`leaves_zeros`). Building starts from a list of zeros instead and cuts it
up from the front and from the end. The two meet because the list is no longer than the fixed leaves
need, so that nothing is left over for the dynamic leaf (`fromDense_zeros`).

A family without rows has no other well-formed vector (`eq_zeros_of_rows_eq_zero`).
-/

namespace BlockVector.Stacked

variable {α : Type u} {F : Family}

theorem wellFormed_zeros (zero : α) (F : Family) : (zeros zero F).WellFormed := by
  induction F with
  | leaf l =>
    rw [zeros, WellFormed, List.length_replicate]
    cases hl : l.rows with
    | fixed n => simp [RowCount.orElse, RowCount.fixed?]
    | dynamic => rfl
  | pair a b iha ihb => exact ⟨iha, ihb⟩

theorem leaves_zeros (zero : α) (F : Family) :
    (zeros zero F).leaves = F.leaves.map fun l => List.replicate (l.rows.orElse 0) zero := by
  induction F with
  | leaf l => rfl
  | pair a b iha ihb => rw [zeros, leaves, iha, ihb, Family.leaves, List.map_append]

theorem toDense_zeros (zero : α) (F : Family) :
    (zeros zero F).toDense = List.replicate F.fixedRows zero := by
  induction F with
  | leaf l => rfl
  | pair a b iha ihb =>
    rw [zeros, toDense, iha, ihb, List.replicate_append_replicate, Family.fixedRows]

theorem size_zeros (zero : α) (F : Family) : (zeros zero F).size = F.fixedRows := by
  rw [(wellFormed_zeros zero F).size_eq, toDense_zeros, List.length_replicate]

/-- **Zeros that are built are the vector of zeros**, unless two leaves are dynamic. -/
theorem fromDense_zeros (hF : F.dynamicLeaves ≤ 1) (zero : α) :
    fromDense F (List.replicate F.fixedRows zero) = .ok (zeros zero F) := by
  rw [← toDense_zeros]
  exact fromDense_of_outcome (tryFromDense_toDense (wellFormed_zeros zero F) hF)

/-- **A family without rows has one well-formed vector only.** -/
theorem eq_zeros_of_rows_eq_zero (hF : F.rows = 0) (zero : α) {v : Stacked α F}
    (hv : v.WellFormed) : v = zeros zero F := by
  have hnull := null_eq_ok hF hv
  rw [null_eq_ok hF (wellFormed_zeros zero F)] at hnull
  exact (Except.ok.inj hnull).symm

/--
**The vector of zeros is the smallest one of its family, and building gives it.**

It has the rows of the fixed leaves, all zero, and its dynamic leaves are empty. With one dynamic
leaf at most it is built from as many zeros as it has rows. A family without rows has just this one
well-formed vector, which is its null vector and the one that is built from no rows.
-/
theorem zeros_agree_with_fromDense (zero : α) (F : Family) :
    (zeros zero F).size = F.fixedRows ∧
    (zeros zero F).toDense = List.replicate F.fixedRows zero ∧
    (∀ (i : Nat) (l : Leaf), F.leaves[i]? = some l → l.rows = .dynamic →
      (zeros zero F).leaves[i]? = some []) ∧
    (F.dynamicLeaves ≤ 1 →
      fromDense F (List.replicate F.fixedRows zero) = .ok (zeros zero F)) ∧
    (F.rows = .fixed 0 →
      (zeros zero F).WellFormed ∧ (∀ v : Stacked α F, v.WellFormed → v = zeros zero F) ∧
        null F = .ok (zeros zero F) ∧ fromDense F [] = .ok (zeros zero F)) := by
  refine ⟨size_zeros zero F, toDense_zeros zero F, ?_, fun hF => fromDense_zeros hF zero, ?_⟩
  · intro i l hl hdynamic
    rw [leaves_zeros, List.getElem?_map, hl, Option.map_some, hdynamic]
    rfl
  · intro hF
    have hwf := wellFormed_zeros zero F
    have hnull : null F = .ok (zeros zero F) := null_eq_ok hF hwf
    exact ⟨hwf, fun v hv => eq_zeros_of_rows_eq_zero hF zero hv, hnull, hnull⟩

/-- Three zeros are cut from the front, from the end and from the front again, and none is left for
the dynamic column. A pair of two columns without rows is built from no zeros. -/
theorem zeros_agree_with_fromDense_nested :
    (Family.pair (.pair (.leaf .velocity) (.leaf .dynamic)) (.leaf .gain)).dynamicLeaves ≤ 1 ∧
    fromDense (.pair (.pair (.leaf .velocity) (.leaf .dynamic)) (.leaf .gain))
      (List.replicate 3 (Number.zero .binary64))
      = .ok (pair (pair (leaf [.zero _, .zero _]) (leaf [])) (leaf [.zero _])) ∧
    (Family.pair (.leaf .noInput) (.leaf (.column 0))).rows = .fixed 0 ∧
    null (.pair (.leaf .noInput) (.leaf (.column 0)))
      = .ok (pair (leaf []) (leaf []) : Stacked (Number .binary64) _) := by
  have hone : (Family.pair (.pair (.leaf .velocity) (.leaf .dynamic))
      (.leaf .gain)).dynamicLeaves ≤ 1 := by decide
  obtain ⟨-, -, -, hbuilt, -⟩ := zeros_agree_with_fromDense (Number.zero .binary64)
    (.pair (.pair (.leaf .velocity) (.leaf .dynamic)) (.leaf .gain))
  obtain ⟨-, -, -, -, hnull⟩ := zeros_agree_with_fromDense (Number.zero .binary64)
    (.pair (.leaf .noInput) (.leaf (.column 0)))
  exact ⟨hone, hbuilt hone, rfl, (hnull rfl).2.2.1⟩

end BlockVector.Stacked

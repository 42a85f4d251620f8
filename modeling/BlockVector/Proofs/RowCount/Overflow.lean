import BlockVector.Proofs.RowCount.Sum

/-!
# Where a sum of row counts overflows

A sum in counts along a `Grouping` is exact where there is one (`Grouping.eq_sum_of_plus`). Whether
there is one can depend on the grouping: a dynamic operand makes every sum that it enters dynamic,
so that fixed operands only add up as far as they are put together without it.

So a sum overflows just where some part of the grouping has fixed operands alone and these add up to
more than a word holds (`Grouping.plus_eq_overflow_iff`). Without a dynamic operand the whole
grouping is the part to look at, and all groupings of the same operands overflow or none does. The
order of two parts never matters (`Grouping.Swapped.plus_eq`).
-/

namespace BlockVector

namespace RowCount

theorem plus_eq_overflow_iff {a b : RowCount} :
    a.plus b = .error (.overflow .add) ↔ ¬ (a + b).Fits := by
  refine ⟨fun h hfits => ?_, plus_eq_overflow⟩
  rw [plus_eq_add hfits] at h
  cases h

theorem plus_comm (a b : RowCount) : a.plus b = b.plus a := by
  by_cases h : (a + b).Fits
  · rw [plus_eq_add h, RowCount.add_comm, plus_eq_add (RowCount.add_comm a b ▸ h)]
  · rw [plus_eq_overflow h, plus_eq_overflow (RowCount.add_comm a b ▸ h)]

end RowCount

namespace Grouping

variable {β : Type u} {d e : Grouping β}

/-! ## Parts -/

/-- A part of a grouping: the grouping itself, or a part of one of the two it puts together. -/
inductive IsPart (p : Grouping β) : Grouping β → Prop where
  | refl : IsPart p p
  | first {d e : Grouping β} : IsPart p d → IsPart p (compose d e)
  | second {d e : Grouping β} : IsPart p e → IsPart p (compose d e)

theorem exists_isPart_operand_iff {x : β} {P : Grouping β → Prop} :
    (∃ p, p.IsPart (operand x) ∧ P p) ↔ P (operand x) := by
  constructor
  · rintro ⟨p, hp, h⟩
    cases hp with
    | refl => exact h
  · intro h
    exact ⟨_, .refl, h⟩

theorem exists_isPart_compose_iff {P : Grouping β → Prop} :
    (∃ p, p.IsPart (compose d e) ∧ P p) ↔
      P (compose d e) ∨ (∃ p, p.IsPart d ∧ P p) ∨ ∃ p, p.IsPart e ∧ P p := by
  constructor
  · rintro ⟨p, hp, h⟩
    cases hp with
    | refl => exact Or.inl h
    | first hp => exact Or.inr (Or.inl ⟨p, hp, h⟩)
    | second hp => exact Or.inr (Or.inr ⟨p, hp, h⟩)
  · rintro (h | ⟨p, hp, h⟩ | ⟨p, hp, h⟩)
    · exact ⟨_, .refl, h⟩
    · exact ⟨p, .first hp, h⟩
    · exact ⟨p, .second hp, h⟩

/-- The second grouping is the first one with two parts swapped somewhere. -/
inductive Swapped : Grouping β → Grouping β → Prop where
  | swap (d e : Grouping β) : Swapped (compose d e) (compose e d)
  | first {d d' : Grouping β} (e : Grouping β) :
      Swapped d d' → Swapped (compose d e) (compose d' e)
  | second {e e' : Grouping β} (d : Grouping β) :
      Swapped e e' → Swapped (compose d e) (compose d e')

/-! ## Sums in counts -/

variable {d e : Grouping RowCount}

/-- A sum overflows in its last step, or in one of the sums that this step adds. -/
theorem plus_compose_eq_overflow_iff :
    (compose d e).plus = .error (.overflow .add) ↔
      ¬ (d.operands ++ e.operands).sum.Fits ∨
        d.plus = .error (.overflow .add) ∨ e.plus = .error (.overflow .add) := by
  rcases d.plus_cases with hd | hd
  · rcases e.plus_cases with he | he
    · rw [plus_compose_of_ok hd he, RowCount.plus_eq_overflow_iff, ← List.sum_append]
      simp [hd, he]
    · simp [plus_compose_of_second_error hd he, he]
  · simp [plus_compose_of_first_error hd e, hd]

/--
**A sum overflows just where some fixed operands that are put together do.**

All operands are counts, so that no overflow is there before anything is added.
-/
theorem plus_eq_overflow_iff {e : Grouping RowCount} (he : ∀ c ∈ e.operands, c.Fits) :
    e.plus = .error (.overflow .add) ↔
      ∃ p : Grouping RowCount, p.IsPart e ∧ ¬ p.operands.sum.Fits := by
  induction e with
  | operand c =>
    have hc : c.Fits := he c (List.mem_singleton_self c)
    rw [exists_isPart_operand_iff, operands, List.sum_cons, List.sum_nil, RowCount.add_zero]
    simp [plus, hc]
  | compose d e ihd ihe =>
    obtain ⟨hd, he⟩ := List.forall_mem_append.mp he
    rw [plus_compose_eq_overflow_iff, exists_isPart_compose_iff, operands, ihd hd, ihe he]

theorem plus_compose_comm (d e : Grouping RowCount) :
    (compose d e).plus = (compose e d).plus := by
  rcases d.plus_cases with hd | hd
  · rcases e.plus_cases with he | he
    · rw [plus_compose_of_ok hd he, plus_compose_of_ok he hd, RowCount.plus_comm]
    · rw [plus_compose_of_second_error hd he, plus_compose_of_first_error he d]
  · rcases e.plus_cases with he | he
    · rw [plus_compose_of_first_error hd e, plus_compose_of_second_error he hd]
    · rw [plus_compose_of_first_error hd e, plus_compose_of_first_error he d]

/-- **The order of two parts does not matter**, wherever in the grouping they are. -/
theorem Swapped.plus_eq (h : d.Swapped e) : d.plus = e.plus := by
  induction h with
  | swap d e => exact plus_compose_comm d e
  | first e _ ih => rw [plus, ih, plus]
  | second d _ ih => rw [plus, ih, plus]

/--
**A sum of row counts is exact or it overflows, and the grouping tells which.**

Two groupings of the same operands never give two sums: where there is one it is dynamic if an
operand is, and else the sum of all. With fixed operands only, every grouping overflows if that sum
is more than a word holds, and none does if it is not. With a dynamic one among them a grouping
overflows just where it puts fixed operands together whose sum is more than that. All operands are
counts.
-/
theorem plus_exact_or_overflow {e : Grouping RowCount} (he : ∀ c ∈ e.operands, c.Fits) :
    (e.plus = .ok (if .dynamic ∈ e.operands then .dynamic
        else .fixed (RowCount.fixedSum e.operands)) ∨
      e.plus = .error (.overflow .add)) ∧
    (∀ d : Grouping RowCount, d.operands = e.operands →
      ∀ c c', d.plus = .ok c → e.plus = .ok c' → c = c') ∧
    (.dynamic ∉ e.operands →
      (e.plus = .error (.overflow .add) ↔ maxCount < RowCount.fixedSum e.operands)) ∧
    (e.plus = .error (.overflow .add) ↔
      ∃ p : Grouping RowCount, p.IsPart e ∧ .dynamic ∉ p.operands ∧
        maxCount < RowCount.fixedSum p.operands) ∧
    ∀ d : Grouping RowCount, e.Swapped d → d.plus = e.plus := by
  have hpart : e.plus = .error (.overflow .add) ↔
      ∃ p : Grouping RowCount, p.IsPart e ∧ .dynamic ∉ p.operands ∧
        maxCount < RowCount.fixedSum p.operands := by
    simp only [plus_eq_overflow_iff he, RowCount.not_fits_sum_iff]
  refine ⟨?_, ?_, ?_, hpart, fun d hd => hd.plus_eq.symm⟩
  · split
    · next h =>
      rw [← RowCount.sum_of_dynamic_mem h]
      exact e.plus_cases
    · next h =>
      rw [← RowCount.sum_of_dynamic_notMem h]
      exact e.plus_cases
  · intro d hd c c' hc hc'
    rw [eq_sum_of_plus hc, eq_sum_of_plus hc', hd]
  · intro hfixed
    refine ⟨fun h => ?_, fun hlt => hpart.mpr ⟨e, .refl, hfixed, hlt⟩⟩
    -- If the whole were small enough there would be a sum, whatever its parts are.
    by_cases hle : RowCount.fixedSum e.operands ≤ maxCount
    · rw [plus_eq_ok hle] at h
      cases h
    · omega

/-- The largest count and one more overflow, unless a dynamic operand takes the one in first. -/
theorem plus_exact_or_overflow_dynamic_last :
    (∀ c ∈ [RowCount.fixed maxCount, .fixed 1, .dynamic], c.Fits) ∧
    (compose (compose (operand (.fixed maxCount)) (operand (.fixed 1)))
      (operand .dynamic)).plus = .error (.overflow .add) ∧
    (compose (operand (.fixed maxCount)) (compose (operand (.fixed 1))
      (operand .dynamic))).plus = .ok .dynamic := by
  have hfits : ∀ c ∈ [RowCount.fixed maxCount, .fixed 1, .dynamic], c.Fits := by decide
  obtain ⟨-, -, -, hoverflow, -⟩ := plus_exact_or_overflow
    (e := compose (compose (operand (.fixed maxCount)) (operand (.fixed 1))) (operand .dynamic))
    hfits
  exact ⟨hfits, hoverflow.mpr ⟨_, .first .refl, by decide, by decide⟩, rfl⟩

end Grouping

end BlockVector

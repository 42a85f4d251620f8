import BlockVector.RowCount

/-!
# Adding up row counts two at a time

A list of operands is put together two at a time, and a `Grouping` says which two. `Grouping.plus`
adds up row counts along a grouping in counts, where each step may overflow. What it gives is the
exact sum of all of them, whichever way they are grouped (`plus_cases`), and it gives something if
the fixed ones among them add up to a count (`plus_eq_ok`).
-/

namespace BlockVector

namespace RowCount

/-- The fixed ones among row counts, added up. -/
def fixedSum : List RowCount → Nat
  | [] => 0
  | c :: cs => c.orElse 0 + fixedSum cs

theorem fixedSum_append (cs ds : List RowCount) :
    fixedSum (cs ++ ds) = fixedSum cs + fixedSum ds := by
  induction cs with
  | nil => rw [List.nil_append, fixedSum, Nat.zero_add]
  | cons c cs ih => rw [List.cons_append, fixedSum, fixedSum, ih, Nat.add_assoc]

theorem sum_of_dynamic_mem {cs : List RowCount} (h : dynamic ∈ cs) : cs.sum = dynamic := by
  induction cs with
  | nil => cases h
  | cons c cs ih =>
    rw [List.sum_cons]
    rcases List.mem_cons.mp h with rfl | hrest
    · rw [dynamic_add]
    · rw [ih hrest, add_dynamic]

theorem sum_of_dynamic_notMem {cs : List RowCount} (h : dynamic ∉ cs) :
    cs.sum = fixed (fixedSum cs) := by
  induction cs with
  | nil => rfl
  | cons c cs ih =>
    obtain ⟨hc, hrest⟩ := List.ne_and_not_mem_of_not_mem_cons h
    rw [List.sum_cons, ih hrest]
    cases c with
    | fixed n => rfl
    | dynamic => exact absurd rfl hc

/-- Only fixed row counts have a sum that does not fit. -/
theorem not_fits_sum_iff {cs : List RowCount} :
    ¬ cs.sum.Fits ↔ dynamic ∉ cs ∧ maxCount < fixedSum cs := by
  by_cases h : dynamic ∈ cs
  · simp [sum_of_dynamic_mem h, Fits, h]
  · simp [sum_of_dynamic_notMem h, Fits, h]

theorem fits_sum {cs : List RowCount} (h : fixedSum cs ≤ maxCount) : cs.sum.Fits := by
  by_cases hdynamic : dynamic ∈ cs
  · rw [sum_of_dynamic_mem hdynamic]
    trivial
  · rw [sum_of_dynamic_notMem hdynamic]
    exact h

end RowCount

/-- A way to put a list of operands together, two at a time. -/
inductive Grouping (β : Type u) where
  | operand (x : β)
  /-- What the first grouping comes to, above what the second one comes to. -/
  | compose (first second : Grouping β)

namespace Grouping

variable {β : Type u} {γ : Type v}

/-- The operands, from top to bottom. -/
def operands : Grouping β → List β
  | operand x => [x]
  | compose d e => d.operands ++ e.operands

/-- The same grouping of other operands. -/
def map (f : β → γ) : Grouping β → Grouping γ
  | operand x => operand (f x)
  | compose d e => compose (d.map f) (e.map f)

theorem operands_ne_nil (e : Grouping β) : e.operands ≠ [] := by
  induction e with
  | operand x => exact List.cons_ne_nil x []
  | compose d e ihd ihe => exact List.append_ne_nil_of_left_ne_nil ihd _

theorem operands_map (f : β → γ) (e : Grouping β) : (e.map f).operands = e.operands.map f := by
  induction e with
  | operand x => rfl
  | compose d e ihd ihe => rw [map, operands, ihd, ihe, operands, List.map_append]

/-- The row counts added up in counts, along a grouping. -/
def plus : Grouping RowCount → Except Failure RowCount
  | operand c => .ok c
  | compose d e => do
    let first ← d.plus
    let second ← e.plus
    first.plus second

variable {d e : Grouping RowCount} {c : RowCount}

theorem plus_compose_of_ok {first second : RowCount} (hd : d.plus = .ok first)
    (he : e.plus = .ok second) : (compose d e).plus = first.plus second := by
  rw [plus, hd, he]
  rfl

theorem plus_compose_of_first_error {failure : Failure} (hd : d.plus = .error failure)
    (e : Grouping RowCount) : (compose d e).plus = .error failure := by
  rw [plus, hd]
  rfl

theorem plus_compose_of_second_error {failure : Failure} {first : RowCount}
    (hd : d.plus = .ok first) (he : e.plus = .error failure) :
    (compose d e).plus = .error failure := by
  rw [plus, hd, he]
  rfl

/-- **A sum along a grouping is the exact sum of the operands, or it overflows.** -/
theorem plus_cases (e : Grouping RowCount) :
    e.plus = .ok e.operands.sum ∨ e.plus = .error (.overflow .add) := by
  induction e with
  | operand c =>
    rw [plus, operands, List.sum_cons, List.sum_nil, RowCount.add_zero]
    exact Or.inl rfl
  | compose d e ihd ihe =>
    rw [operands, List.sum_append]
    rcases ihd with hd | hd
    · rcases ihe with he | he
      · rw [plus_compose_of_ok hd he]
        exact RowCount.plus_cases _ _
      · exact Or.inr (plus_compose_of_second_error hd he)
    · exact Or.inr (plus_compose_of_first_error hd e)

theorem eq_sum_of_plus (h : e.plus = .ok c) : c = e.operands.sum := by
  rcases e.plus_cases with hok | herror
  · rw [hok] at h
    exact (Except.ok.inj h).symm
  · rw [herror] at h
    cases h

/-- **Where the fixed operands add up to a count, there is a sum along every grouping.** -/
theorem plus_eq_ok (h : RowCount.fixedSum e.operands ≤ maxCount) :
    e.plus = .ok e.operands.sum := by
  induction e with
  | operand x => rw [plus, operands, List.sum_cons, List.sum_nil, RowCount.add_zero]
  | compose d e ihd ihe =>
    have hfits := RowCount.fits_sum h
    rw [operands, RowCount.fixedSum_append] at h
    rw [operands, List.sum_append] at hfits ⊢
    rw [plus_compose_of_ok (ihd (by omega)) (ihe (by omega)), RowCount.plus_eq_add hfits]

end Grouping

end BlockVector

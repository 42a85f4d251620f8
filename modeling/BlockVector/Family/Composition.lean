import BlockVector.Family.Basic

/-!
# Composing families

One family above another is a pair, except that an operand that declares to be empty drops out: it
has nothing to add. When both do, the first one stays.

`Composition` says which operands have a place in the result, so that the vectors of the composed
family can be put together and taken apart by cases (`BlockVector.Stacked.Composition`).
-/

namespace BlockVector

/-- Which operands have a place in a composition. -/
inductive Composition where
  | both
  | firstOnly
  | secondOnly
  deriving DecidableEq, Repr

namespace Composition

/-- The composition of two families, by what they declare. -/
def of (a b : Family) : Composition :=
  if b.declaredEmpty then firstOnly else if a.declaredEmpty then secondOnly else both

/-- The family that a composition makes of its operands. -/
def family : Composition → Family → Family → Family
  | both, a, b => .pair a b
  | firstOnly, a, _ => a
  | secondOnly, _, b => b

end Composition

/-- One family above another. -/
def Family.combine (a b : Family) : Family := (Composition.of a b).family a b

/-! ## The cases of a composition -/

namespace Composition

variable {a b : Family}

theorem of_eq_firstOnly (hb : b.declaredEmpty = true) : of a b = firstOnly := if_pos hb

theorem of_eq_secondOnly (hb : b.declaredEmpty = false) (ha : a.declaredEmpty = true) :
    of a b = secondOnly := by
  simp [of, ha, hb]

theorem of_eq_both (hb : b.declaredEmpty = false) (ha : a.declaredEmpty = false) :
    of a b = both := by
  simp [of, ha, hb]

end Composition

namespace Family

variable {a b : Family}

theorem combine_of_second_empty (hb : b.declaredEmpty = true) : a.combine b = a := by
  rw [combine, Composition.of_eq_firstOnly hb, Composition.family]

theorem combine_of_first_empty (hb : b.declaredEmpty = false) (ha : a.declaredEmpty = true) :
    a.combine b = b := by
  rw [combine, Composition.of_eq_secondOnly hb ha, Composition.family]

theorem combine_of_nonempty (hb : b.declaredEmpty = false) (ha : a.declaredEmpty = false) :
    a.combine b = pair a b := by
  rw [combine, Composition.of_eq_both hb ha, Composition.family]

/-- A composed family declares to be empty just where both operands do. -/
theorem declaredEmpty_combine (a b : Family) :
    (a.combine b).declaredEmpty = (a.declaredEmpty && b.declaredEmpty) := by
  cases hb : b.declaredEmpty with
  | true => rw [combine_of_second_empty hb, Bool.and_true]
  | false =>
    cases ha : a.declaredEmpty with
    | true => rw [combine_of_first_empty hb ha, hb, Bool.and_false]
    | false => rw [combine_of_nonempty hb ha, declaredEmpty, ha, hb]

end Family

end BlockVector

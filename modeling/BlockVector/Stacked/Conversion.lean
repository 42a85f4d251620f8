import BlockVector.Dense
import BlockVector.Stacked.Basic

/-!
# From dense to stacked vectors

A vector of a leaf is built from the rows that the leaf takes. A pair cuts the dense vector in two
and builds its parts from the pieces, the first part first. Where the cut goes is either given or
follows from the row counts of the parts (`Family.staticSplit`).

Between two dynamic parts nothing tells where to cut, and `fromDense` gives all rows to the second.

Nothing is checked beforehand: what does not fit fails where it is met.
`BlockVector.Stacked.Checked` has conversions that check first.
-/

namespace BlockVector.Stacked

variable {α : Type u} {a b : Family}

/-- Builds the parts of a pair from the two pieces of a dense vector. -/
def buildPair (first : List α → Except Failure (Stacked α a))
    (second : List α → Except Failure (Stacked α b)) (xs : List α) (split : Nat) :
    Except Failure (Stacked α (.pair a b)) := do
  let pieces ← Dense.cut xs split
  let u ← first pieces.1
  let v ← second pieces.2
  return pair u v

theorem buildPair_of_le {first : List α → Except Failure (Stacked α a)}
    {second : List α → Except Failure (Stacked α b)} {xs : List α} {split : Nat}
    (h : split ≤ xs.length) :
    buildPair first second xs split = (do
      let u ← first (xs.take split)
      let v ← second (xs.drop split)
      return pair u v) := by
  rw [buildPair, Dense.cut, if_pos h]
  rfl

/-- A pair is built when the cut lies inside the dense vector and both parts are built. -/
theorem buildPair_eq_ok_iff {first : List α → Except Failure (Stacked α a)}
    {second : List α → Except Failure (Stacked α b)} {xs : List α} {split : Nat}
    {w : Stacked α (.pair a b)} :
    buildPair first second xs split = .ok w ↔
      split ≤ xs.length ∧ ∃ u v, first (xs.take split) = .ok u ∧ second (xs.drop split) = .ok v ∧
        w = pair u v := by
  by_cases h : split ≤ xs.length
  · cases hu : first (xs.take split) with
    | error e => simp [buildPair, Dense.cut, h, hu, bind, Except.bind]
    | ok u =>
      cases hv : second (xs.drop split) with
      | error e => simp [buildPair, Dense.cut, h, hu, hv, bind, Except.bind]
      | ok v => simp [buildPair, Dense.cut, h, hu, hv, bind, Except.bind, pure, Except.pure, eq_comm]
  · simp [buildPair, Dense.cut, h, bind, Except.bind]

/-- The vector of a family with the given rows. -/
def fromDense : (F : Family) → List α → Except Failure (Stacked α F)
  | .leaf l, xs =>
    match l.refusal xs.length with
    | some failure => .error failure
    | none => .ok (leaf (l.keep xs))
  | .pair a b, xs =>
    buildPair (fromDense a) (fromDense b) xs ((a.staticSplit b xs.length).getD 0)

/-- The vector of a pair whose first part has the first `split` rows. -/
def fromDenseSplit (a b : Family) (xs : List α) (split : Nat) :
    Except Failure (Stacked α (.pair a b)) :=
  buildPair (fromDense a) (fromDense b) xs split

/-- The vector of a pair whose parts are built from a dense vector each. -/
def fromDensePair (a b : Family) (xs ys : List α) : Except Failure (Stacked α (.pair a b)) := do
  let u ← fromDense a xs
  let v ← fromDense b ys
  return pair u v

theorem fromDensePair_eq_ok_iff {xs ys : List α} {w : Stacked α (.pair a b)} :
    fromDensePair a b xs ys = .ok w ↔
      ∃ u v, fromDense a xs = .ok u ∧ fromDense b ys = .ok v ∧ w = pair u v := by
  rw [fromDensePair]
  cases fromDense a xs with
  | error e => simp [bind, Except.bind]
  | ok u =>
    cases fromDense b ys with
    | error e => simp [bind, Except.bind]
    | ok v => simp [bind, Except.bind, pure, Except.pure, eq_comm]

/-- A pair is not built where its first part is not, or else where its second part is not. -/
theorem fromDensePair_eq_error_iff {xs ys : List α} {failure : Failure} :
    fromDensePair a b xs ys = .error failure ↔
      fromDense a xs = .error failure ∨
        (∃ u, fromDense a xs = .ok u) ∧ fromDense b ys = .error failure := by
  rw [fromDensePair]
  cases fromDense a xs with
  | error e => simp [bind, Except.bind]
  | ok u =>
    cases fromDense b ys with
    | error e => simp [bind, Except.bind]
    | ok v => simp [bind, Except.bind, pure, Except.pure]

/-- A leaf is built from what it does not refuse, and holds what it takes of it. -/
theorem fromDense_leaf_eq_ok_iff {l : Leaf} {xs : List α} {w : Stacked α (.leaf l)} :
    fromDense (.leaf l) xs = .ok w ↔ l.refusal xs.length = none ∧ w = leaf (l.keep xs) := by
  unfold fromDense
  cases h : l.refusal xs.length <;> simp [eq_comm]

theorem fromDense_pair (a b : Family) (xs : List α) :
    fromDense (.pair a b) xs = fromDenseSplit a b xs ((a.staticSplit b xs.length).getD 0) := rfl

theorem fromDense_pair_of_staticSplit {xs : List α} {split : Nat}
    (h : a.staticSplit b xs.length = some split) :
    fromDense (.pair a b) xs = fromDenseSplit a b xs split := by
  rw [fromDense_pair, h, Option.getD_some]

/-- The vector without rows of a family. -/
def null (F : Family) : Except Failure (Stacked α F) := fromDense F []

end BlockVector.Stacked

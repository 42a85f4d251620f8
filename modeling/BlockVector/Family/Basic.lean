import BlockVector.Leaf

/-!
# Families

A family says what vectors of one kind are made of: it is a leaf, or one family above another. All
vectors of a family have the same parts in the same order.
-/

namespace BlockVector

/-- A kind of vector, by its parts. -/
inductive Family where
  | leaf (l : Leaf)
  /-- Vectors made of one of `first` above one of `second`. -/
  | pair (first second : Family)
  deriving DecidableEq, Repr

namespace Family

/-- The row count of the vectors of a family. -/
def rows : Family → RowCount
  | leaf l => l.rows
  | pair a b => a.rows + b.rows

/-- The family declares to be empty: all its leaves do. -/
def declaredEmpty : Family → Bool
  | leaf l => l.declaredEmpty
  | pair a b => a.declaredEmpty && b.declaredEmpty

/-- What the family declares agrees with its row count. -/
def isConsistent (F : Family) : Bool := F.declaredEmpty == F.rows.isZero

/-- The leaves of a family from top to bottom. -/
def leaves : Family → List Leaf
  | leaf l => [l]
  | pair a b => a.leaves ++ b.leaves

/-- The name of coordinate `index` of a vector. A pair does not use the names of its parts: all its
coordinates are named by index. -/
def coordinateName : Family → Nat → Except Failure String
  | leaf l => l.labels.name
  | pair .. => Leaf.Labels.indexed.name

/-- The row at which the first part of a pair ends in a dense vector of `rows` rows, if the row
counts of the parts say so. A fixed first part takes its rows from the front; above a fixed second
part, the first one takes what is left. -/
def staticSplit (a b : Family) (rows : Nat) : Option Nat :=
  match a.rows, b.rows with
  | .fixed n, _ => some n
  | .dynamic, .fixed n => some (rows - n)
  | .dynamic, .dynamic => none

theorem staticSplit_of_fixed {a b : Family} {n rows : Nat} (ha : a.rows = .fixed n) :
    a.staticSplit b rows = some n := by
  simp only [staticSplit, ha]

theorem staticSplit_of_dynamic_fixed {a b : Family} {n rows : Nat} (ha : a.rows = .dynamic)
    (hb : b.rows = .fixed n) : a.staticSplit b rows = some (rows - n) := by
  simp only [staticSplit, ha, hb]

theorem staticSplit_of_dynamic {a b : Family} {rows : Nat} (ha : a.rows = .dynamic)
    (hb : b.rows = .dynamic) : a.staticSplit b rows = none := by
  simp only [staticSplit, ha, hb]

end Family

end BlockVector

/-!
# Failures

What can stop an operation on block vectors half-way. A failure is not an answer: the operation has
no result, and whatever it had already changed stays changed (`BlockVector.Stacked.Assignment`).

Conversions that check their input first refuse it with a `Mismatch` instead
(`BlockVector.Mismatch`).
-/

namespace BlockVector

/-- What is computed with counts. -/
inductive Arithmetic where
  | add
  | multiply
  deriving DecidableEq, Repr

/-- The verb for a computation. -/
def Arithmetic.verb : Arithmetic → String
  | add => "add"
  | multiply => "multiply"

/-- Why an operation stopped. -/
inductive Failure where
  /-- A static column of `expected` rows was given `actual` rows. -/
  | wrongRows (expected actual : Nat)
  /-- A run of rows was asked for beyond the end of a dense vector. -/
  | sliceOutOfRange
  /-- A leaf read a row that the dense vector does not have. -/
  | rowOutOfRange
  /-- Two dense vectors of different lengths were to be compared row by row. -/
  | unequalRows
  /-- A leaf with names for `known` coordinates was asked for the name of another one. -/
  | unnamedCoordinate (known index : Nat)
  /-- A result left the range of 64-bit words. -/
  | overflow (operation : Arithmetic)
  /-- More decimal places, or a wider field, were asked for than a number may be written with. -/
  | fieldOutOfRange
  deriving DecidableEq, Repr

/-- The text a failure is reported with. -/
def Failure.message : Failure → String
  | .wrongRows expected actual =>
    "assertion `left == right` failed: cannot build a " ++ Nat.repr expected
      ++ "-row vector from " ++ Nat.repr actual ++ " rows\n  left: " ++ Nat.repr actual
      ++ "\n right: " ++ Nat.repr expected
  | .sliceOutOfRange => "Matrix slicing out of bounds."
  | .rowOutOfRange => "Matrix index out of bounds."
  | .unequalRows => "assertion failed: self.shape() == other.shape()"
  | .unnamedCoordinate known index =>
    "index out of bounds: the len is " ++ Nat.repr known ++ " but the index is " ++ Nat.repr index
  | .overflow operation => "attempt to " ++ operation.verb ++ " with overflow"
  | .fieldOutOfRange => "Formatting argument out of range"

end BlockVector

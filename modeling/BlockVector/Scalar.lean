import BlockVector.Number.Text

/-!
# Scalars

The two kinds of coordinates a vector can have, and what hangs on the choice: the format of the
numbers, how far apart two of them may be and still count as the same, and where their JSON text
turns to exponents.
-/

namespace BlockVector

/-- A kind of coordinates. -/
inductive Scalar where
  /-- Single precision. -/
  | single
  /-- Double precision. -/
  | double
  deriving DecidableEq, Repr

namespace Scalar

/-- The format of the numbers. -/
def format : Scalar → Format
  | single => .binary32
  | double => .binary64

/-- The numbers that coordinates are. -/
abbrev Coordinate (s : Scalar) : Type := Number s.format

/-- How far apart two coordinates may be in a comparison that names no tolerance. -/
def tolerance : (s : Scalar) → s.Coordinate
  | single => Number.ofRat _ (1 / 100000)
  | double => Number.ofRat _ (1 / 1000000000000)

/-- The places of the leading digit at which JSON text has no exponent. -/
def window : Scalar → Number.Window
  | single => ⟨-6, 12⟩
  | double => ⟨-5, 15⟩

end Scalar

end BlockVector

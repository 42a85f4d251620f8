import BlockVector.Dense
import BlockVector.Scalar
import BlockVector.Stacked.Basic

/-!
# Comparing vectors by their rows

Vectors of any two families can be compared by their dense forms: they must have equally many rows,
and the rows are compared one by one. How the rows are shared out between parts makes no difference
here, unlike in `Stacked.equal`.

Two numbers count as close when they are equal, when they differ by no more than the tolerance, or
when they differ by no more than the tolerance times the larger of their magnitudes. An infinite
number is close to itself alone, and nan to nothing. All of it is computed in the format of the
numbers, every step rounded.

How close two dense forms are can only be asked if they have the same length (`Dense.related`), so
lengths are looked at first, and dense forms of different lengths are not close.
-/

namespace BlockVector.Number

variable {f : Format}

/-- The larger of two magnitudes; the first one where they cannot be compared. -/
def larger (a b : Number f) : Number f := if a.less b then b else a

/-- The numbers are equal up to the tolerance `eps`. -/
def close (eps a b : Number f) : Bool :=
  if a.equal b then true
  else if a.isInfinite || b.isInfinite then false
  else (a.distance b).atMost eps || (a.distance b).atMost ((larger a.abs b.abs).mul eps)

/-- Equal numbers are close, whatever the tolerance. -/
theorem close_of_equal {eps a b : Number f} (h : a.equal b) : close eps a b := if_pos h

end BlockVector.Number

namespace BlockVector.Stacked

variable {s : Scalar} {F G : Family}

/-- The dense forms are equal. -/
def denseEq (u : Stacked s.Coordinate F) (v : Stacked s.Coordinate G) : Bool :=
  u.toDense.isEqv v.toDense Number.equal

/-- The dense forms are equal up to a tolerance. -/
def denseClose (eps : s.Coordinate) (u : Stacked s.Coordinate F) (v : Stacked s.Coordinate G) :
    Except Failure Bool :=
  if u.toDense.length = v.toDense.length then
    Dense.related (Number.close eps) u.toDense v.toDense
  else .ok false

/-- The dense forms are equal up to the tolerance of the scalar. -/
def denseApproxEq (u : Stacked s.Coordinate F) (v : Stacked s.Coordinate G) : Except Failure Bool :=
  denseClose s.tolerance u v

end BlockVector.Stacked

import BlockVector.Family.Composition
import BlockVector.Stacked.Conversion

/-!
# Composing vectors

Vectors of two families are put together to one of the composed family, and taken apart again. An
operand without a place in the composition is dropped, and made anew, without rows, when it is asked
for.
-/

namespace BlockVector

/-- An operand of a composed vector. -/
structure Part (α : Type u) (F : Family) where
  value : Stacked α F
  /-- It is stored in the composed vector, and not made anew. -/
  borrowed : Bool

namespace Part

variable {α : Type u} {F : Family}

/-- An operand that is stored in the composed vector. -/
def stored (v : Stacked α F) : Part α F := ⟨v, true⟩

/-- An operand made anew, without rows. -/
def fresh : Except Failure (Part α F) := do
  let v ← Stacked.null F
  return ⟨v, false⟩

end Part

namespace Composition

variable {α : Type u} {a b : Family}

/-- Puts two vectors together. -/
def join : (c : Composition) → Stacked α a → Stacked α b → Stacked α (c.family a b)
  | both, u, v => .pair u v
  | firstOnly, u, _ => u
  | secondOnly, _, v => v

/-- The first operand of a composed vector. -/
def first : (c : Composition) → Stacked α (c.family a b) → Except Failure (Part α a)
  | both, .pair u _ => .ok (.stored u)
  | firstOnly, u => .ok (.stored u)
  | secondOnly, _ => Part.fresh

/-- The second operand of a composed vector. -/
def second : (c : Composition) → Stacked α (c.family a b) → Except Failure (Part α b)
  | both, .pair _ v => .ok (.stored v)
  | firstOnly, _ => Part.fresh
  | secondOnly, v => .ok (.stored v)

end Composition

namespace Stacked

variable {α : Type u} {a b : Family}

/-- One vector above another. -/
def combine (u : Stacked α a) (v : Stacked α b) : Stacked α (a.combine b) :=
  (Composition.of a b).join u v

/-- The upper operand of a composed vector. -/
def upper (a b : Family) (w : Stacked α (a.combine b)) : Except Failure (Part α a) :=
  (Composition.of a b).first w

/-- The lower operand of a composed vector. -/
def lower (a b : Family) (w : Stacked α (a.combine b)) : Except Failure (Part α b) :=
  (Composition.of a b).second w

end Stacked

end BlockVector

import BlockVector.Number.Basic
import BlockVector.Stacked.Conversion

/-!
# Random vectors

A vector of a family with a fixed row count is drawn row by row, one 64-bit word for each row, and
then built from the dense vector of the rows. So what a row is depends on its word alone, and not on
the part it ends up in.

The upper 52 bits of a word choose one of as many equally spaced points between -1 and 1, with -1
and without 1. The points are numbers of double precision. A format with less precision rounds them,
and may round one up to 1.
-/

namespace BlockVector

/-- A source of words with states in `γ`. -/
structure Generator (γ : Type u) where
  next : γ → UInt64 × γ

/-- The next `n` words, and the state after them. -/
def Generator.draw {γ : Type u} (g : Generator γ) : Nat → γ → List UInt64 × γ
  | 0, state => ([], state)
  | n + 1, state =>
    let (word, state) := g.next state
    let (words, state) := g.draw n state
    (word :: words, state)

namespace Random

/-- The point that a word chooses. -/
def point (word : UInt64) : Rat := 2 * ((word >>> 12).toNat / 4503599627370496 : Rat) - 1

/-- The coordinate that a word chooses. -/
def coordinate (f : Format) (word : UInt64) : Number f :=
  (Number.ofRat .binary64 (point word)).convert f

end Random

/-- A random vector of a family with a fixed row count, and the state of the source after it. -/
def Stacked.random {γ : Type} (f : Format) (F : Family) (g : Generator γ) (state : γ) :
    Except Failure (Stacked (Number f) F) × γ :=
  let (words, state) := g.draw (F.rows.orElse 0) state
  (Stacked.fromDense F (words.map (Random.coordinate f)), state)

end BlockVector

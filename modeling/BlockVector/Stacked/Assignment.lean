import BlockVector.Stacked.Conversion

/-!
# Assignment

A vector takes over the rows of a dense vector. A leaf is replaced as a whole, or not at all. A pair
cuts the dense vector in two and assigns the pieces to its parts, the first part first. Between two
dynamic parts the cut goes where it is now: the first part keeps its size.

Assignment is not all or nothing. When the second part fails, the first one has changed already and
stays so. Hence `assign` gives back the vector that is left behind in any case.
-/

namespace BlockVector

/-- What an assignment leaves behind, and why it stopped if it did. -/
structure Assigned (α : Type u) (F : Family) where
  value : Stacked α F
  failure : Option Failure

namespace Stacked

variable {α : Type u}

/-- Takes over the rows of a dense vector. -/
def assign : {F : Family} → Stacked α F → List α → Assigned α F
  | .leaf l, leaf rows, xs =>
    match fromDense (.leaf l) xs with
    | .ok v => ⟨v, none⟩
    | .error failure => ⟨leaf rows, some failure⟩
  | .pair a b, pair u v, xs =>
    let split := (a.staticSplit b xs.length).getD u.size
    if split ≤ xs.length then
      let first := u.assign (xs.take split)
      match first.failure with
      | some failure => ⟨pair first.value v, some failure⟩
      | none =>
        let second := v.assign (xs.drop split)
        ⟨pair first.value second.value, second.failure⟩
    else ⟨pair u v, some .sliceOutOfRange⟩

end Stacked

end BlockVector

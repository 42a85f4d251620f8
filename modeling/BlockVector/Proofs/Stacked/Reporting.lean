import BlockVector.Stacked.Checked

/-!
# What the log says of a refusal

A checked conversion writes to the log where it meets the reason to refuse, which may lie deep
inside the vector. From there the refusal goes up through every pair around that place. None of them
writes about it once more, and none writes about its own rows instead.

So the log holds what the outcome is reported with (`Attempt.report`): nothing for a vector, and for
a refusal one entry with the values of the refusal itself. Attempts one after another keep to this
(`Attempt.IsReported.bind`), as the second one is not made after a refusal. Hence a pair keeps to it
if its parts do (`isReported_tryPair`), and every family does (`isReported_tryFromDense`).
-/

namespace BlockVector

/-- The entry of the log for a refusal. -/
def Mismatch.event : Mismatch → Event
  | wrongSize expected actual =>
    ⟨"rejected dense vector", [("expected", expected), ("actual", actual)]⟩
  | ambiguousSplit rows =>
    ⟨"no static split between dynamic parts", [("rows", Nat.repr rows)]⟩
  | splitOutOfRange split rows =>
    ⟨"split point past the end", [("split", Nat.repr split), ("rows", Nat.repr rows)]⟩

namespace Attempt

variable {β γ : Type u}

/-- What an outcome is reported with: nothing, or the entry for the refusal. -/
def report : Except Mismatch β → List Event
  | .ok _ => []
  | .error e => [e.event]

/-- The log holds what the outcome is reported with. -/
def IsReported (x : Attempt β) : Prop := x.log = report x.outcome

theorem isReported_pure (v : β) : IsReported (pure v) := rfl

theorem isReported_rejectSize (expected : RowCount) (actual : Nat) :
    IsReported (rejectSize expected actual : Attempt β) := rfl

/-- **One attempt after another is reported once**: the first writes nothing unless it refuses, and
then the second is not made. -/
theorem IsReported.bind {x : Attempt β} {f : β → Attempt γ} (hx : x.IsReported)
    (hf : ∀ v, (f v).IsReported) : (x >>= f).IsReported := by
  unfold IsReported at hx ⊢
  cases h : x.outcome with
  | error e =>
    rw [bind_of_error h, hx, h]
    rfl
  | ok v =>
    rw [bind_of_ok h, hx, h]
    exact hf v

end Attempt

namespace Stacked

variable {α : Type u} {a b : Family}

/-- A pair is reported as its parts are, or for the cut if it comes to no part at all. -/
theorem isReported_tryPair {first : List α → Attempt (Stacked α a)}
    {second : List α → Attempt (Stacked α b)} (hfirst : ∀ ys, (first ys).IsReported)
    (hsecond : ∀ ys, (second ys).IsReported) (xs : List α) (split : Nat) :
    (tryPair first second xs split).IsReported := by
  unfold tryPair
  split
  · refine (hfirst _).bind fun u => (hsecond _).bind fun w => ?_
    exact Attempt.isReported_pure (pair u w)
  · rfl

theorem isReported_tryFromDense (F : Family) (xs : List α) : (tryFromDense F xs).IsReported := by
  induction F generalizing xs with
  | leaf l =>
    unfold tryFromDense
    split
    · exact Attempt.isReported_pure _
    · exact Attempt.isReported_rejectSize _ _
  | pair a b iha ihb =>
    rw [tryFromDense_pair]
    split
    · cases a.staticSplit b xs.length with
      | none => rfl
      | some split => exact isReported_tryPair iha ihb xs split
    · exact Attempt.isReported_rejectSize _ _

/--
**Every refusal is logged once, with its own values, and nothing else is logged.**

This holds wherever in the vector the refusal comes from, and also where the cut is given.
-/
theorem log_eq_report (F a b : Family) (xs : List α) (split : Nat) :
    (tryFromDense F xs).log = Attempt.report (tryFromDense F xs).outcome ∧
    (tryFromDenseSplit a b xs split).log
      = Attempt.report (tryFromDenseSplit a b xs split).outcome :=
  ⟨isReported_tryFromDense F xs,
    isReported_tryPair (isReported_tryFromDense a) (isReported_tryFromDense b) xs split⟩

/-- The gain lies two pairs deep and gets no row. The entry tells of the gain, and not of the pairs
around it, which got one row and none. -/
example : (tryFromDense (.pair (.pair (.leaf .dynamic) (.leaf .gain)) (.leaf .velocity)) [7]).log
    = [⟨"rejected dense vector", [("expected", "1"), ("actual", "0")]⟩] := by
  rfl

end Stacked

end BlockVector

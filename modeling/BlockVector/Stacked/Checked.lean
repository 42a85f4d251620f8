import BlockVector.Mismatch
import BlockVector.Stacked.Basic

/-!
# Checked conversion

Conversion that looks at the number of rows first, at every part anew, and refuses what does not fit
with the reason. The first reason that is met counts, and it is written to the log where it is met.

So the outcome is a vector or a `Mismatch`, and the log comes with either. `Attempt` keeps the two
together, and doing one attempt after another joins their logs.
-/

namespace BlockVector

/-- What comes out of a checked conversion, and what it wrote to the log. -/
structure Attempt (β : Type u) where
  outcome : Except Mismatch β
  log : List Event

namespace Attempt

/-- Success, with nothing to log. -/
protected def pure {β : Type u} (v : β) : Attempt β := ⟨.ok v, []⟩

/-- A second attempt that goes on with what came out of the first. -/
protected def bind {β γ : Type u} (x : Attempt β) (f : β → Attempt γ) : Attempt γ :=
  match x.outcome with
  | .error e => ⟨.error e, x.log⟩
  | .ok v => ⟨(f v).outcome, x.log ++ (f v).log⟩

instance : Monad Attempt where
  pure := Attempt.pure
  bind := Attempt.bind

theorem bind_of_error {β γ : Type u} {x : Attempt β} {e : Mismatch} (h : x.outcome = .error e)
    (f : β → Attempt γ) : x >>= f = ⟨.error e, x.log⟩ := by
  simp only [bind, Attempt.bind, h]

theorem bind_of_ok {β γ : Type u} {x : Attempt β} {v : β} (h : x.outcome = .ok v)
    (f : β → Attempt γ) : x >>= f = ⟨(f v).outcome, x.log ++ (f v).log⟩ := by
  simp only [bind, Attempt.bind, h]

/-- One attempt after another succeeds when both do. -/
theorem outcome_bind_eq_ok_iff {β γ : Type u} {x : Attempt β} {f : β → Attempt γ} {w : γ} :
    (x >>= f).outcome = .ok w ↔ ∃ v, x.outcome = .ok v ∧ (f v).outcome = .ok w := by
  cases h : x.outcome with
  | error e => simp [bind_of_error h]
  | ok v => simp [bind_of_ok h]

theorem outcome_bind_eq_error_iff {β γ : Type u} {x : Attempt β} {f : β → Attempt γ}
    {e : Mismatch} :
    (x >>= f).outcome = .error e ↔
      x.outcome = .error e ∨ ∃ v, x.outcome = .ok v ∧ (f v).outcome = .error e := by
  cases h : x.outcome with
  | error e' => simp [bind_of_error h]
  | ok v => simp [bind_of_ok h]

/-- Refusal for a reason, with an entry in the log. -/
def reject {β : Type u} (reason : Mismatch) (entry : Event) : Attempt β := ⟨.error reason, [entry]⟩

/-- Refusal of `actual` rows where the row count is `expected`. -/
def rejectSize {β : Type u} (expected : RowCount) (actual : Nat) : Attempt β :=
  reject (.wrongSize (toString expected) (Nat.repr actual))
    (.rejected (toString expected) (Nat.repr actual))

end Attempt

namespace Stacked

variable {α : Type u} {a b : Family}

/-- Attempts the parts of a pair with the two pieces of a dense vector. -/
def tryPair (first : List α → Attempt (Stacked α a)) (second : List α → Attempt (Stacked α b))
    (xs : List α) (split : Nat) : Attempt (Stacked α (.pair a b)) :=
  if split ≤ xs.length then do
    let u ← first (xs.take split)
    let v ← second (xs.drop split)
    return pair u v
  else .reject (.splitOutOfRange split xs.length) (.splitPastEnd split xs.length)

/-- A pair is accepted when the cut lies inside the dense vector and both parts are accepted. -/
theorem outcome_tryPair_eq_ok_iff {first : List α → Attempt (Stacked α a)}
    {second : List α → Attempt (Stacked α b)} {xs : List α} {split : Nat}
    {w : Stacked α (.pair a b)} :
    (tryPair first second xs split).outcome = .ok w ↔
      split ≤ xs.length ∧ ∃ u v, (first (xs.take split)).outcome = .ok u ∧
        (second (xs.drop split)).outcome = .ok v ∧ w = pair u v := by
  unfold tryPair
  split
  · next h =>
    simp only [Attempt.outcome_bind_eq_ok_iff, h, true_and]
    simp [pure, Attempt.pure, eq_comm]
  · next h => simp [Attempt.reject, h]

/-- A pair is refused for the cut, for its first part, or for its second part when the first one was
accepted. -/
theorem outcome_tryPair_eq_error_iff {first : List α → Attempt (Stacked α a)}
    {second : List α → Attempt (Stacked α b)} {xs : List α} {split : Nat} {e : Mismatch} :
    (tryPair first second xs split).outcome = .error e ↔
      xs.length < split ∧ e = .splitOutOfRange split xs.length ∨
      split ≤ xs.length ∧ ((first (xs.take split)).outcome = .error e ∨
        (∃ u, (first (xs.take split)).outcome = .ok u) ∧
          (second (xs.drop split)).outcome = .error e) := by
  unfold tryPair
  by_cases h : split ≤ xs.length
  · rw [if_pos h, Attempt.outcome_bind_eq_error_iff]
    simp [h, Nat.not_lt.mpr h, Attempt.outcome_bind_eq_error_iff, pure, Attempt.pure]
  · simp [h, Nat.not_le.mp h, Attempt.reject, eq_comm]

/-- The vector of a family with the given rows, if they fit. -/
def tryFromDense : (F : Family) → List α → Attempt (Stacked α F)
  | .leaf l, xs =>
    if l.rows.admits xs.length then return leaf (l.keep xs) else .rejectSize l.rows xs.length
  | .pair a b, xs =>
    if (a.rows + b.rows).admits xs.length then
      match a.staticSplit b xs.length with
      | none => .reject (.ambiguousSplit xs.length) (.noStaticSplit xs.length)
      | some split => tryPair (tryFromDense a) (tryFromDense b) xs split
    else .rejectSize (a.rows + b.rows) xs.length

/-- The vector of a pair whose first part has the first `split` rows, if they fit. -/
def tryFromDenseSplit (a b : Family) (xs : List α) (split : Nat) :
    Attempt (Stacked α (.pair a b)) :=
  tryPair (tryFromDense a) (tryFromDense b) xs split

theorem tryFromDense_pair (a b : Family) (xs : List α) :
    tryFromDense (.pair a b) xs =
      if (a.rows + b.rows).admits xs.length then
        match a.staticSplit b xs.length with
        | none => .reject (.ambiguousSplit xs.length) (.noStaticSplit xs.length)
        | some split => tryFromDenseSplit a b xs split
      else .rejectSize (a.rows + b.rows) xs.length := rfl

theorem tryFromDense_pair_of_staticSplit {xs : List α} {split : Nat}
    (hadmits : (a.rows + b.rows).admits xs.length) (h : a.staticSplit b xs.length = some split) :
    tryFromDense (.pair a b) xs = tryFromDenseSplit a b xs split := by
  rw [tryFromDense_pair, if_pos hadmits, h]

/-- A leaf accepts what its row count admits, and holds all of it. -/
theorem outcome_tryFromDense_leaf_eq_ok_iff {l : Leaf} {xs : List α} {w : Stacked α (.leaf l)} :
    (tryFromDense (.leaf l) xs).outcome = .ok w ↔ l.rows.admits xs.length ∧ w = leaf xs := by
  unfold tryFromDense
  split
  · next h => simp [pure, Attempt.pure, Leaf.keep_of_admits h, h, eq_comm]
  · next h => simp [Attempt.rejectSize, Attempt.reject, h]

/-- A pair accepts what its row count admits, if the row counts of its parts say where to cut and
both parts accept their pieces. -/
theorem outcome_tryFromDense_pair_eq_ok_iff {xs : List α} {w : Stacked α (.pair a b)} :
    (tryFromDense (.pair a b) xs).outcome = .ok w ↔
      (a.rows + b.rows).admits xs.length ∧ ∃ split, a.staticSplit b xs.length = some split ∧
        split ≤ xs.length ∧ ∃ u v, (tryFromDense a (xs.take split)).outcome = .ok u ∧
          (tryFromDense b (xs.drop split)).outcome = .ok v ∧ w = pair u v := by
  rw [tryFromDense_pair]
  split
  · next h =>
    cases hs : a.staticSplit b xs.length with
    | none => simp [Attempt.reject]
    | some split => simp [h, tryFromDenseSplit, outcome_tryPair_eq_ok_iff]
  · next h => simp [Attempt.rejectSize, Attempt.reject, h]

end Stacked

end BlockVector

import BlockVector.RowCount

/-!
# Dense vectors

A dense vector is a list of rows. Runs of its rows can be taken out, side by side or at equal
distances. Where a run ends is computed in counts, so a run at equal distances also fails where its
end is no count (`viewDistance_eq_ok_iff`).

Two dense vectors are compared row by row (`List.isEqv`). Those of different lengths are not equal,
but nothing is to be said of how close they are: `related` fails for them.
-/

namespace BlockVector.Dense

variable {α : Type u}

/-- The first `split` rows and the rest. -/
def cut (xs : List α) (split : Nat) : Except Failure (List α × List α) :=
  if split ≤ xs.length then .ok (xs.take split, xs.drop split) else .error .sliceOutOfRange

/-- The `rows` rows from `start` on, at a given distance from one to the next. -/
def spaced (xs : List α) (start rows distance : Nat) : List α :=
  (List.range rows).filterMap fun i => xs[start + i * distance]?

/-- The distance between the rows of a view of `rows` rows from `start` on, where `step` rows are
left out after each, if the view stays inside a vector of `length` rows. The rows left out after the
last one may lie beyond the end; they are added to both sides of the test for that reason. -/
def viewDistance (length start rows step : Nat) : Except Failure Nat := do
  let distance ← Count.add step 1
  let covered ← Count.multiply distance rows
  let reach ← Count.add start covered
  let bound ← Count.add length step
  if reach ≤ bound then return distance
  throw .sliceOutOfRange

/-- The `rows` rows from `start` on, where `step` rows are left out after each. -/
def view (xs : List α) (start rows step : Nat) : Except Failure (List α) :=
  (viewDistance xs.length start rows step).map (spaced xs start rows)

/-- The rows of two vectors of the same length are related in pairs. -/
def related (r : α → α → Bool) (xs ys : List α) : Except Failure Bool :=
  if xs.length = ys.length then .ok (xs.isEqv ys r) else .error .unequalRows

/-- A view is possible just where it stays inside the vector and all counts made for it fit. -/
theorem viewDistance_eq_ok_iff {length start rows step distance : Nat} :
    viewDistance length start rows step = .ok distance ↔
      distance = step + 1 ∧ distance ≤ maxCount ∧ length + step ≤ maxCount ∧
        start + distance * rows ≤ length + step := by
  constructor
  · intro h
    simp only [viewDistance, bind, Except.bind] at h
    split at h
    · cases h
    · next hdistance =>
      split at h
      · cases h
      · next hcovered =>
        split at h
        · cases h
        · next hreach =>
          split at h
          · cases h
          · next hbound =>
            rw [Count.add_eq_ok_iff] at hdistance hreach hbound
            rw [Count.multiply_eq_ok_iff] at hcovered
            split at h
            · next hle =>
              cases h
              obtain ⟨rfl, hdistance⟩ := hdistance
              obtain ⟨rfl, _⟩ := hcovered
              obtain ⟨rfl, _⟩ := hreach
              obtain ⟨rfl, hbound⟩ := hbound
              exact ⟨rfl, hdistance, hbound, hle⟩
            · cases h
  · rintro ⟨rfl, hdistance, hbound, hle⟩
    have hcovered : (step + 1) * rows ≤ maxCount := by omega
    have hreach : start + (step + 1) * rows ≤ maxCount := by omega
    simp only [viewDistance, bind, Except.bind, Count.add_of_le hdistance,
      Count.multiply_of_le hcovered, Count.add_of_le hreach, Count.add_of_le hbound, if_pos hle]
    rfl

/-- Two vectors one above the other are cut apart where the first one ends. -/
theorem cut_append (xs ys : List α) : cut (xs ++ ys) xs.length = .ok (xs, ys) := by
  simp [cut]

/-- The two pieces of a cut make up the whole. -/
theorem append_of_cut {xs : List α} {split : Nat} {pieces : List α × List α}
    (h : cut xs split = .ok pieces) : pieces.1 ++ pieces.2 = xs := by
  unfold cut at h
  split at h
  · cases h
    exact List.take_append_drop split xs
  · cases h

/-! ## Rows in pairs -/

theorem length_eq_of_isEqv {r : α → α → Bool} {xs ys : List α} (h : xs.isEqv ys r) :
    xs.length = ys.length := by
  rw [List.isEqv_eq_decide] at h
  split at h
  · next hlength => exact hlength
  · cases h

theorem isEqv_mono {r r' : α → α → Bool} (hr : ∀ x y, r x y → r' x y) {xs ys : List α}
    (h : xs.isEqv ys r) : xs.isEqv ys r' := by
  induction xs generalizing ys with
  | nil =>
    cases ys with
    | nil => rfl
    | cons y ys => cases h
  | cons x xs ih =>
    cases ys with
    | nil => cases h
    | cons y ys =>
      rw [List.isEqv_cons_cons, Bool.and_eq_true] at h ⊢
      exact ⟨hr x y h.1, ih h.2⟩

/-- **Two vectors one above the other are compared piece by piece** with two others, if the upper
pieces have the same length. -/
theorem isEqv_append {r : α → α → Bool} {xs ys xs' ys' : List α} (h : xs.length = ys.length) :
    (xs ++ xs').isEqv (ys ++ ys') r = (xs.isEqv ys r && xs'.isEqv ys' r) := by
  induction xs generalizing ys with
  | nil =>
    rw [List.length_nil] at h
    rw [List.length_eq_zero_iff.mp h.symm]
    rfl
  | cons x xs ih =>
    cases ys with
    | nil => cases h
    | cons y ys =>
      rw [List.cons_append, List.cons_append, List.isEqv_cons_cons, List.isEqv_cons_cons,
        ih (Nat.succ.inj h), Bool.and_assoc]

theorem isEqv_replicate {r : α → α → Bool} {x : α} (hx : r x x) (n : Nat) :
    (List.replicate n x).isEqv (List.replicate n x) r := by
  induction n with
  | zero => rfl
  | succ n ih => rw [List.replicate_succ, List.isEqv_cons_cons, hx, ih, Bool.and_self]

end BlockVector.Dense

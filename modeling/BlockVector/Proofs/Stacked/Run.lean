import BlockVector.Proofs.Stacked.Zeros
import BlockVector.Stacked.Json
import BlockVector.Stacked.Random

/-!
# Runs of operations on a held vector

A vector of a family is held, and operations make it, replace it and change it, one after the other.
A way to make one may fail, and then the old vector stays. An assignment may stop half-way, and then
the vector stays as it was left.

What is held at the end of a run is always well-formed (`wellFormed_of_held?`): every way to make a
vector gives a well-formed one (`wellFormed_of_result?`), and assignments keep that
(`wellFormed_assign`). Hence at every node of its tree the row count of the family, the size that
goes by it, the sizes of the parts and the rows that are really there agree (`counts_agree`).
-/

namespace BlockVector

open Stacked

/-- A way to make a vector of a family from data. -/
inductive Construction (s : Scalar) : Family → Type 1 where
  | fromDense {F : Family} (xs : List s.Coordinate) : Construction s F
  | tryFromDense {F : Family} (xs : List s.Coordinate) : Construction s F
  | fromDensePair {a b : Family} (xs ys : List s.Coordinate) : Construction s (.pair a b)
  | fromDenseSplit {a b : Family} (xs : List s.Coordinate) (split : Nat) :
      Construction s (.pair a b)
  | tryFromDenseSplit {a b : Family} (xs : List s.Coordinate) (split : Nat) :
      Construction s (.pair a b)
  | null {F : Family} : Construction s F
  | zeros {F : Family} : Construction s F
  | random {F : Family} {γ : Type} (g : Generator γ) (state : γ) : Construction s F
  | ofText {F : Family} (text : String) : Construction s F

/-- The vector that is made, unless the construction fails. -/
def Construction.result? {s : Scalar} :
    {F : Family} → Construction s F → Option (Stacked s.Coordinate F)
  | F, fromDense xs => (Stacked.fromDense F xs).toOption
  | F, tryFromDense xs => (Stacked.tryFromDense F xs).outcome.toOption
  | .pair a b, fromDensePair xs ys => (Stacked.fromDensePair a b xs ys).toOption
  | .pair a b, fromDenseSplit xs split => (Stacked.fromDenseSplit a b xs split).toOption
  | .pair a b, tryFromDenseSplit xs split =>
    (Stacked.tryFromDenseSplit a b xs split).outcome.toOption
  | F, null => (Stacked.null F).toOption
  | F, zeros => some (Stacked.zeros (Number.zero s.format) F)
  | F, random g state => (Stacked.random s.format F g state).1.toOption
  | F, ofText text => Stacked.ofText? s F text

/-- A run of operations on one held vector, by the run before its last operation. -/
inductive Run (s : Scalar) : Family → Type 1 where
  /-- Nothing is held yet. -/
  | start {F : Family} : Run s F
  | construct {F : Family} (before : Run s F) (how : Construction s F) : Run s F
  /-- What two other runs hold is put one above the other. -/
  | stack {a b : Family} (before : Run s (.pair a b)) (first : Run s a) (second : Run s b) :
      Run s (.pair a b)
  | assign {F : Family} (before : Run s F) (xs : List s.Coordinate) : Run s F

/-- The vector that is held after a run, if there is one. -/
def Run.held? {s : Scalar} : {F : Family} → Run s F → Option (Stacked s.Coordinate F)
  | _, start => none
  | _, construct before how => how.result?.or before.held?
  | _, stack before first second =>
    match first.held?, second.held? with
    | some u, some v => some (.pair u v)
    | _, _ => before.held?
  | _, assign before xs => before.held?.map fun v => (v.assign xs).value

/-! ## Every construction gives a well-formed vector -/

namespace Stacked

variable {F G a b : Family}

theorem wellFormed_of_ofJson? {α : Type} {number? : Json → Option α} {depth : Json.Depth}
    {json : Json} {v : Stacked α F} (h : ofJson? number? depth F json = some v) : v.WellFormed := by
  induction F generalizing depth json with
  | leaf l =>
    simp only [ofJson?, bind, Option.bind_eq_some_iff] at h
    obtain ⟨items, -, rows, -, hrows⟩ := h
    split at hrows
    · next hadmits =>
      cases hrows
      exact (Bool.and_eq_true_iff.mp hadmits).1
    · cases hrows
  | pair a b iha ihb =>
    rw [ofJson?, Option.bind_eq_bind, Option.bind_eq_some_iff] at h
    obtain ⟨inner, -, h⟩ := h
    split at h
    · simp only [bind, Option.bind_eq_some_iff] at h
      obtain ⟨u, hu, w, hw, hpair⟩ := h
      cases hpair
      exact ⟨iha hu, ihb hw⟩
    · cases h

end Stacked

theorem eq_ok_of_toOption {ε : Type u} {β : Type v} {x : Except ε β} {y : β}
    (h : x.toOption = some y) : x = .ok y := by
  cases x with
  | error e => cases h
  | ok z =>
    cases h
    rfl

variable {s : Scalar} {F G a b : Family}

/-- **Whatever way a vector is made, it is well-formed.** -/
theorem Construction.wellFormed_of_result? {how : Construction s F}
    {v : Stacked s.Coordinate F} (h : how.result? = some v) : v.WellFormed := by
  cases how with
  | fromDense xs => exact wellFormed_of_fromDense (eq_ok_of_toOption h)
  | tryFromDense xs => exact (wellFormed_and_toDense_of_ok (eq_ok_of_toOption h)).1
  | fromDensePair xs ys =>
    obtain ⟨u, w, hu, hw, rfl⟩ := fromDensePair_eq_ok_iff.mp (eq_ok_of_toOption h)
    exact ⟨wellFormed_of_fromDense hu, wellFormed_of_fromDense hw⟩
  | fromDenseSplit xs split =>
    obtain ⟨-, u, w, hu, hw, rfl⟩ := buildPair_eq_ok_iff.mp (eq_ok_of_toOption h)
    exact ⟨wellFormed_of_fromDense hu, wellFormed_of_fromDense hw⟩
  | tryFromDenseSplit xs split =>
    obtain ⟨-, u, w, hu, hw, rfl⟩ := outcome_tryPair_eq_ok_iff.mp (eq_ok_of_toOption h)
    exact ⟨(wellFormed_and_toDense_of_ok hu).1, (wellFormed_and_toDense_of_ok hw).1⟩
  | null => exact wellFormed_of_fromDense (eq_ok_of_toOption h)
  | zeros =>
    cases h
    exact wellFormed_zeros _ F
  | random g state => exact wellFormed_of_fromDense (eq_ok_of_toOption h)
  | ofText text =>
    obtain ⟨json, -, hjson⟩ := Option.bind_eq_some_iff.mp h
    exact wellFormed_of_ofJson? hjson

namespace Run

/-- **A held vector is well-formed after every run.** -/
theorem wellFormed_of_held? {run : Run s F} {v : Stacked s.Coordinate F}
    (h : run.held? = some v) : v.WellFormed := by
  induction run with
  | start => cases h
  | construct before how ih =>
    rcases Option.or_eq_some_iff.mp h with hresult | ⟨-, hheld⟩
    · exact how.wellFormed_of_result? hresult
    -- The construction failed, so this is the vector of the run before.
    · exact ih hheld
  | stack before first second ih ihfirst ihsecond =>
    rw [held?] at h
    split at h
    · next u w hu hw =>
      cases h
      exact ⟨ihfirst hu, ihsecond hw⟩
    · exact ih h
  | assign before xs ih =>
    obtain ⟨w, hw, rfl⟩ := Option.map_eq_some_iff.mp h
    exact wellFormed_assign (ih hw) xs

end Run

/-! ## What that says about the counts of rows -/

namespace Stacked

variable {α : Type u}

/-- `w` is a node of the tree of a vector: the vector itself, or a node of one of its parts. -/
inductive IsNode {α : Type u} : {G F : Family} → Stacked α G → Stacked α F → Prop where
  | refl {F : Family} (v : Stacked α F) : IsNode v v
  | first {G a b : Family} {w : Stacked α G} {u : Stacked α a} (v : Stacked α b) :
      IsNode w u → IsNode w (.pair u v)
  | second {G a b : Family} {w : Stacked α G} {v : Stacked α b} (u : Stacked α a) :
      IsNode w v → IsNode w (.pair u v)

theorem IsNode.wellFormed {w : Stacked α G} {v : Stacked α F} (h : w.IsNode v)
    (hv : v.WellFormed) : w.WellFormed := by
  induction h with
  | refl v => exact hv
  | first v _ ih => exact ih hv.1
  | second u _ ih => exact ih hv.2

end Stacked

namespace Run

/--
**All counts of rows agree in what is held, after every run.**

At every node of the tree the size, which trusts a fixed row count, and the size that the vector
itself tells are the length of the dense form. That length is the fixed row count where there is
one, a leaf with a fixed row count holds that many rows, and a pair has the rows of its two parts.
-/
theorem counts_agree (run : Run s F) {v : Stacked s.Coordinate F} (h : run.held? = some v) :
    (∀ (G : Family) (w : Stacked s.Coordinate G), w.IsNode v →
      w.size = w.toDense.length ∧ w.dynamicSize = w.toDense.length ∧
        ∀ n, G.rows = .fixed n → w.toDense.length = n) ∧
    (∀ (l : Leaf) (rows : List s.Coordinate), IsNode (leaf rows : Stacked _ (.leaf l)) v →
      ∀ n, l.rows = .fixed n → rows.length = n) ∧
    (∀ (a b : Family) (u : Stacked s.Coordinate a) (w : Stacked s.Coordinate b),
      (pair u w).IsNode v →
      u.size + w.size = (pair u w).toDense.length ∧
        (pair u w).toDense.length = u.toDense.length + w.toDense.length) := by
  have hv : v.WellFormed := wellFormed_of_held? h
  refine ⟨?_, ?_, ?_⟩
  · intro G w hw
    have hwf := hw.wellFormed hv
    exact ⟨hwf.size_eq, hwf.dynamicSize_eq, fun n hn => hwf.length_toDense hn⟩
  · intro l rows hrows n hn
    exact (hrows.wellFormed hv).length_toDense hn
  · intro a b u w hpair
    rw [← size_pair]
    exact ⟨(hpair.wellFormed hv).size_eq, List.length_append⟩

/-- An assignment of one row stops in the velocity, after the column above it has lost its two. What
is left has the size of the velocity. -/
theorem counts_agree_interrupted :
    (Run.assign
      (.stack .start
        (.construct .start (.fromDense (F := .leaf .dynamic) [.infinite true, .nan]))
        (.construct .start (.tryFromDense (F := .leaf .velocity) [.nan, .infinite false])))
      [.infinite true] : Run .double (.pair (.leaf .dynamic) (.leaf .velocity))).held?
        = some (pair (leaf []) (leaf [.nan, .infinite false])) ∧
    (pair (leaf []) (leaf [.nan, .infinite false]) :
      Stacked (Scalar.Coordinate .double) (.pair (.leaf .dynamic) (.leaf .velocity))).size = 2 :=
  ⟨rfl, ((counts_agree (.assign
      (.stack .start
        (.construct .start (.fromDense (F := .leaf .dynamic) [.infinite true, .nan]))
        (.construct .start (.tryFromDense (F := .leaf .velocity) [.nan, .infinite false])))
      [.infinite true]) rfl).1 _ _ (.refl _)).1⟩

end Run

end BlockVector

import BlockVector.Proofs.Stacked.Decoding

/-!
# What a refusal says

The checked conversion refuses a dense vector with the first reason it meets, and the counts in the
reason are those of the piece in which it was met. How many leaves of the family are dynamic says
which reason that is.

* Without a dynamic leaf the number of all rows is wrong, and no piece is looked at
  (`eq_wrongSize_of_refusal`).
* With one, there are too few rows for the others, and some part with a fixed row count shows it
  (`isShortage_of_refusal`). It is never given too many: above the dynamic part it gets what it needs
  or is not cut off at all, and below it gets no more than what it needs.
* With two or more, some pair has two dynamic parts. Where the rows are enough for the fixed leaves,
  all parts before that pair are accepted and nothing tells where to cut the pair itself
  (`outcome_eq_ambiguousSplit`).
-/

namespace BlockVector

/-- `P` is a part of a family: the family itself, or a part of one of the two it pairs. -/
inductive Family.IsPart (P : Family) : Family → Prop where
  | refl : IsPart P P
  | first {a b : Family} : IsPart P a → IsPart P (.pair a b)
  | second {a b : Family} : IsPart P b → IsPart P (.pair a b)

/-- A refusal for want of rows: some part of the family has a fixed row count, and of the
`available` rows fewer than that were left for it. -/
def Mismatch.IsShortage (e : Mismatch) (F : Family) (available : Nat) : Prop :=
  ∃ (P : Family) (expected actual : Nat), P.IsPart F ∧ P.rows = .fixed expected ∧
    actual < expected ∧ actual ≤ available ∧
    (e = .wrongSize (Nat.repr expected) (Nat.repr actual) ∨ e = .splitOutOfRange expected actual)

namespace Mismatch.IsShortage

variable {e : Mismatch} {a b F : Family} {available available' : Nat}

theorem first (h : e.IsShortage a available) (hle : available ≤ available') :
    e.IsShortage (.pair a b) available' := by
  obtain ⟨P, expected, actual, hpart, hrows, hlt, hactual, he⟩ := h
  exact ⟨P, expected, actual, hpart.first, hrows, hlt, Nat.le_trans hactual hle, he⟩

theorem second (h : e.IsShortage b available) (hle : available ≤ available') :
    e.IsShortage (.pair a b) available' := by
  obtain ⟨P, expected, actual, hpart, hrows, hlt, hactual, he⟩ := h
  exact ⟨P, expected, actual, hpart.second, hrows, hlt, Nat.le_trans hactual hle, he⟩

theorem ne_ambiguousSplit (h : e.IsShortage F available) (rows : Nat) :
    e ≠ .ambiguousSplit rows := by
  obtain ⟨P, expected, actual, -, -, -, -, rfl | rfl⟩ := h
  · exact nofun
  · exact nofun

end Mismatch.IsShortage

namespace Family

variable {F a b : Family}

/-- The first pair of two dynamic parts that is met from the top, where each step goes down to the
only part that is dynamic. -/
def undecidedPair? : Family → Option Family
  | leaf _ => none
  | pair a b =>
    match a.rows, b.rows with
    | .dynamic, .dynamic => some (pair a b)
    | .dynamic, .fixed _ => a.undecidedPair?
    | .fixed _, .dynamic => b.undecidedPair?
    | .fixed _, .fixed _ => none

theorem undecidedPair?_of_dynamic (ha : a.rows = .dynamic) (hb : b.rows = .dynamic) :
    (pair a b).undecidedPair? = some (pair a b) := by
  simp only [undecidedPair?, ha, hb]

theorem undecidedPair?_of_dynamic_fixed {n : Nat} (ha : a.rows = .dynamic)
    (hb : b.rows = .fixed n) : (pair a b).undecidedPair? = a.undecidedPair? := by
  simp only [undecidedPair?, ha, hb]

theorem undecidedPair?_of_fixed_dynamic {n : Nat} (ha : a.rows = .fixed n)
    (hb : b.rows = .dynamic) : (pair a b).undecidedPair? = b.undecidedPair? := by
  simp only [undecidedPair?, ha, hb]

theorem dynamic_of_undecidedPair? {P : Family} (h : F.undecidedPair? = some P) :
    ∃ a b, P = pair a b ∧ a.rows = .dynamic ∧ b.rows = .dynamic := by
  induction F with
  | leaf l => cases h
  | pair a b iha ihb =>
    unfold undecidedPair? at h
    split at h
    · next ha hb =>
      cases h
      exact ⟨a, b, rfl, ha, hb⟩
    · exact iha h
    · exact ihb h
    · cases h

end Family

namespace Stacked

variable {α : Type u} {F a b : Family} {xs : List α} {e : Mismatch}

/-! ## One step -/

theorem outcome_tryFromDense_of_not_admits (h : ¬ F.rows.admits xs.length) :
    (tryFromDense F xs).outcome
      = .error (.wrongSize (toString F.rows) (Nat.repr xs.length)) := by
  cases F with
  | leaf l =>
    rw [tryFromDense, if_neg (show ¬ l.rows.admits xs.length from h)]
    rfl
  | pair a b =>
    rw [tryFromDense_pair, if_neg (show ¬ (a.rows + b.rows).admits xs.length from h)]
    rfl

theorem outcome_tryFromDense_of_dynamic (ha : a.rows = .dynamic) (hb : b.rows = .dynamic) :
    (tryFromDense (.pair a b) xs).outcome = .error (.ambiguousSplit xs.length) := by
  rw [tryFromDense_pair, ha, hb, if_pos (by rfl), Family.staticSplit_of_dynamic ha hb]
  rfl

theorem tryFromDense_pair_of_fixed_dynamic {n : Nat} (ha : a.rows = .fixed n)
    (hb : b.rows = .dynamic) : tryFromDense (.pair a b) xs = tryFromDenseSplit a b xs n := by
  refine tryFromDense_pair_of_staticSplit ?_ (Family.staticSplit_of_fixed ha)
  rw [ha, hb]
  rfl

theorem tryFromDense_pair_of_dynamic_fixed {n : Nat} (ha : a.rows = .dynamic)
    (hb : b.rows = .fixed n) :
    tryFromDense (.pair a b) xs = tryFromDenseSplit a b xs (xs.length - n) := by
  refine tryFromDense_pair_of_staticSplit ?_ (Family.staticSplit_of_dynamic_fixed ha hb)
  rw [ha, hb]
  rfl

/-! ## By the number of dynamic leaves -/

/-- **Without a dynamic leaf, a refusal names the rows of the family and those that were given.** -/
theorem eq_wrongSize_of_refusal (hF : F.dynamicLeaves = 0)
    (h : (tryFromDense F xs).outcome = .error e) :
    xs.length ≠ F.fixedRows ∧ e = .wrongSize (Nat.repr F.fixedRows) (Nat.repr xs.length) := by
  have hrows := Family.rows_eq_fixed hF
  have hne : xs.length ≠ F.fixedRows := by
    intro hlength
    have hadmits : F.rows.admits xs.length := by
      rw [hlength]
      exact F.admits_fixedRows
    obtain ⟨v, hv⟩ := exists_tryFromDense_eq_ok (by omega) hadmits (Nat.le_of_eq hlength.symm)
    rw [hv] at h
    cases h
  have hadmits : ¬ F.rows.admits xs.length := by
    rw [hrows, RowCount.fixed_admits_iff]
    exact hne.symm
  refine ⟨hne, ?_⟩
  rw [outcome_tryFromDense_of_not_admits hadmits, hrows] at h
  cases h
  rfl

/-- **With one dynamic leaf, a refusal tells of too few rows.** -/
theorem isShortage_of_refusal (hF : F.dynamicLeaves = 1)
    (h : (tryFromDense F xs).outcome = .error e) : e.IsShortage F xs.length := by
  induction F generalizing xs with
  | leaf l =>
    have hl : l.rows = .dynamic := Family.rows_eq_dynamic_iff (F := .leaf l).mpr (by omega)
    rw [outcome_tryFromDense_leaf_eq_ok_iff.mpr ⟨by rw [hl]; rfl, rfl⟩] at h
    cases h
  | pair a b iha ihb =>
    rw [Family.dynamicLeaves] at hF
    have hparts : a.dynamicLeaves = 0 ∧ b.dynamicLeaves = 1 ∨
        a.dynamicLeaves = 1 ∧ b.dynamicLeaves = 0 := by omega
    rcases hparts with ⟨ha, hb⟩ | ⟨ha, hb⟩
    · have ha' := Family.rows_eq_fixed ha
      have hb' : b.rows = .dynamic := Family.rows_eq_dynamic_iff.mpr (by omega)
      rw [tryFromDense_pair_of_fixed_dynamic ha' hb', tryFromDenseSplit,
        outcome_tryPair_eq_error_iff] at h
      rcases h with ⟨hlt, rfl⟩ | ⟨hle, hfirst | ⟨-, hsecond⟩⟩
      · exact ⟨a, _, _, .first .refl, ha', hlt, Nat.le_refl _, Or.inr rfl⟩
      · -- The first part was given just the rows it needs.
        exact absurd (List.length_take_of_le hle) (eq_wrongSize_of_refusal ha hfirst).1
      · refine (ihb hb hsecond).second ?_
        rw [List.length_drop]
        exact Nat.sub_le _ _
    · have ha' : a.rows = .dynamic := Family.rows_eq_dynamic_iff.mpr (by omega)
      have hb' := Family.rows_eq_fixed hb
      rw [tryFromDense_pair_of_dynamic_fixed ha' hb', tryFromDenseSplit,
        outcome_tryPair_eq_error_iff] at h
      rcases h with ⟨hlt, -⟩ | ⟨hle, hfirst | ⟨-, hsecond⟩⟩
      · omega
      · refine (iha ha hfirst).first ?_
        rw [List.length_take_of_le hle]
        exact hle
      · -- The second part keeps its rows from the end, so it was given all there are.
        obtain ⟨hne, rfl⟩ := eq_wrongSize_of_refusal hb hsecond
        rw [List.length_drop] at hne ⊢
        exact ⟨b, _, _, .second .refl, hb', by omega, by omega, Or.inl rfl⟩

/-- **With two dynamic leaves, rows that are enough for the fixed ones are refused where nothing
tells how to share them out.** -/
theorem outcome_eq_ambiguousSplit (hF : 2 ≤ F.dynamicLeaves) (hle : F.fixedRows ≤ xs.length) :
    ∃ P outside, F.undecidedPair? = some P ∧ outside + P.fixedRows = F.fixedRows ∧
      (tryFromDense F xs).outcome = .error (.ambiguousSplit (xs.length - outside)) := by
  induction F generalizing xs with
  | leaf l =>
    rw [Family.dynamicLeaves] at hF
    split at hF <;> omega
  | pair a b iha ihb =>
    rw [Family.dynamicLeaves] at hF
    rw [Family.fixedRows] at hle
    cases ha : a.rows with
    | fixed n =>
      -- The second part gets all rows but those of the first one, which are outside the pair.
      obtain ⟨hzero, rfl⟩ := Family.rows_eq_fixed_iff.mp ha
      have hb : b.rows = .dynamic := Family.rows_eq_dynamic_iff.mpr (by omega)
      have hcut : a.fixedRows ≤ xs.length := by omega
      have hdrop : b.fixedRows ≤ (xs.drop a.fixedRows).length := by
        rw [List.length_drop]
        omega
      obtain ⟨P, outside, hpair, hrows, hsecond⟩ := ihb (by omega) hdrop
      refine ⟨P, a.fixedRows + outside, ?_, ?_, ?_⟩
      · rw [Family.undecidedPair?_of_fixed_dynamic ha hb, hpair]
      · rw [Family.fixedRows, ← hrows, Nat.add_assoc]
      · rw [List.length_drop, Nat.sub_sub] at hsecond
        rw [tryFromDense_pair_of_fixed_dynamic ha hb, tryFromDenseSplit,
          outcome_tryPair_eq_error_iff]
        exact Or.inr ⟨hcut, Or.inr ⟨exists_outcome_take hzero hcut, hsecond⟩⟩
    | dynamic =>
      cases hb : b.rows with
      | dynamic =>
        refine ⟨.pair a b, 0, Family.undecidedPair?_of_dynamic ha hb, Nat.zero_add _, ?_⟩
        rw [outcome_tryFromDense_of_dynamic ha hb, Nat.sub_zero]
      | fixed m =>
        -- The first part gets all rows but those of the second one, and is refused first.
        obtain ⟨hzero, rfl⟩ := Family.rows_eq_fixed_iff.mp hb
        have hcut : xs.length - b.fixedRows ≤ xs.length := Nat.sub_le _ _
        have hlength := List.length_take_of_le hcut
        have htake : a.fixedRows ≤ (xs.take (xs.length - b.fixedRows)).length := by
          rw [hlength]
          omega
        obtain ⟨P, outside, hpair, hrows, hfirst⟩ := iha (by omega) htake
        refine ⟨P, b.fixedRows + outside, ?_, ?_, ?_⟩
        · rw [Family.undecidedPair?_of_dynamic_fixed ha hb, hpair]
        · rw [Family.fixedRows, ← hrows]
          omega
        · rw [hlength, Nat.sub_sub] at hfirst
          rw [tryFromDense_pair_of_dynamic_fixed ha hb, tryFromDenseSplit,
            outcome_tryPair_eq_error_iff]
          exact Or.inr ⟨hcut, Or.inl hfirst⟩

/--
**A refusal names the right reason, with counts that are true.**

Without a dynamic leaf it names the rows of the family and those that were given. With one it tells
of some part with a fixed row count and of fewer rows than that, and never of an open split. With
two or more, and rows that are enough for the fixed leaves, it tells of the rows that came to the
first pair of two dynamic parts: all but those of the fixed leaves outside that pair.
-/
theorem refusal_is_truthful (h : (tryFromDense F xs).outcome = .error e) :
    (F.dynamicLeaves = 0 → e = .wrongSize (Nat.repr F.fixedRows) (Nat.repr xs.length)) ∧
    (F.dynamicLeaves = 1 →
      e.IsShortage F xs.length ∧ ∀ rows, e ≠ .ambiguousSplit rows) ∧
    (2 ≤ F.dynamicLeaves → F.fixedRows ≤ xs.length →
      ∃ a b outside, F.undecidedPair? = some (.pair a b) ∧ a.rows = .dynamic ∧ b.rows = .dynamic ∧
        outside + (Family.pair a b).fixedRows = F.fixedRows ∧
        e = .ambiguousSplit (xs.length - outside)) := by
  refine ⟨?_, ?_, ?_⟩
  · intro hzero
    exact (eq_wrongSize_of_refusal hzero h).2
  · intro hone
    have hshortage := isShortage_of_refusal hone h
    exact ⟨hshortage, hshortage.ne_ambiguousSplit⟩
  · intro htwo hle
    obtain ⟨P, outside, hpair, hrows, houtcome⟩ := outcome_eq_ambiguousSplit htwo hle
    obtain ⟨a, b, rfl, ha, hb⟩ := Family.dynamic_of_undecidedPair? hpair
    rw [houtcome] at h
    cases h
    exact ⟨a, b, outside, hpair, ha, hb, hrows, rfl⟩

/-- Three rows are missing between a dynamic column and a velocity. Of six rows three belong to the
columns above and below the two dynamic parts, and the gain inside of them does not count. -/
theorem refusal_is_truthful_nested :
    ((tryFromDense (.pair (.pair (.leaf .dynamic) (.pair (.leaf .gain) (.leaf (.column 2))))
      (.leaf .velocity)) [1]).outcome = .error (.wrongSize (Nat.repr 3) (Nat.repr 0)) ∧
      (Mismatch.wrongSize (Nat.repr 3) (Nat.repr 0)).IsShortage (.pair (.pair (.leaf .dynamic)
        (.pair (.leaf .gain) (.leaf (.column 2)))) (.leaf .velocity)) 1) ∧
    (tryFromDense (.pair (.leaf (.column 2)) (.pair (.pair (.leaf .dynamic)
      (.pair (.leaf .gain) (.leaf .ragged))) (.leaf (.column 1)))) [1, 2, 3, 4, 5, 6]).outcome
        = .error (.ambiguousSplit 3) ∧
    ∃ a b outside, Family.undecidedPair? (.pair (.leaf (.column 2)) (.pair (.pair (.leaf .dynamic)
      (.pair (.leaf .gain) (.leaf .ragged))) (.leaf (.column 1)))) = some (.pair a b) ∧
      outside + (Family.pair a b).fixedRows = 4 ∧
      Mismatch.ambiguousSplit 3 = .ambiguousSplit (6 - outside) := by
  have hone : (tryFromDense (.pair (.pair (.leaf .dynamic) (.pair (.leaf .gain)
      (.leaf (.column 2)))) (.leaf .velocity)) [1]).outcome
        = .error (.wrongSize (Nat.repr 3) (Nat.repr 0)) := rfl
  have htwo : (tryFromDense (.pair (.leaf (.column 2)) (.pair (.pair (.leaf .dynamic)
      (.pair (.leaf .gain) (.leaf .ragged))) (.leaf (.column 1)))) [1, 2, 3, 4, 5, 6]).outcome
        = .error (.ambiguousSplit 3) := rfl
  obtain ⟨hshortage, -⟩ := (refusal_is_truthful hone).2.1 rfl
  obtain ⟨a, b, outside, hpair, -, -, hrows, hsplit⟩ :=
    (refusal_is_truthful htwo).2.2 (by decide) (by decide)
  exact ⟨⟨hone, hshortage⟩, htwo, a, b, outside, hpair, hrows, hsplit⟩

end Stacked

end BlockVector

import BlockVector.Family.Composition
import BlockVector.Proofs.RowCount.Sum

/-!
# Composing many families

Composition takes two operands. More of them are composed by a `Grouping`, two at a time, and each
step goes by what the families that the steps before it made declare. The result depends on the list
of operands alone: it is a tree of pairs with the operands that are not declared empty, in their
order, or the first operand if all are declared empty (`isPairing_family`).

Where what the operands declare agrees with their row counts, an operand that drops out has no rows.
Then the result has the rows of all operands together (`rows_family`).
-/

namespace BlockVector

namespace Family

variable {a b F : Family}

/-- `F` is a tree of pairs with the given operands, from top to bottom. -/
inductive IsPairing : Family → List Family → Prop where
  | operand (F : Family) : IsPairing F [F]
  | pair {a b : Family} {Fs Gs : List Family} :
      IsPairing a Fs → IsPairing b Gs → IsPairing (.pair a b) (Fs ++ Gs)

theorem IsPairing.leaves_eq {Fs : List Family} (h : F.IsPairing Fs) :
    F.leaves = Fs.flatMap leaves := by
  induction h with
  | operand F => simp
  | pair _ _ iha ihb => rw [leaves, iha, ihb, List.flatMap_append]

/-! ## The operands that stay -/

/-- The operands that have a place in a composition: those that are not declared empty, or else the
first one. -/
def kept (Fs : List Family) : List Family :=
  if Fs.all declaredEmpty then Fs.take 1 else Fs.filter fun F => !F.declaredEmpty

theorem filter_eq_nil_of_all_declaredEmpty {Fs : List Family}
    (h : Fs.all declaredEmpty = true) : (Fs.filter fun F => !F.declaredEmpty) = [] := by
  rw [List.filter_eq_nil_iff]
  intro F hF
  rw [List.all_eq_true] at h
  simp [h F hF]

theorem kept_append_of_second_empty {Fs Gs : List Family} (hne : Fs ≠ [])
    (hG : Gs.all declaredEmpty = true) : kept (Fs ++ Gs) = kept Fs := by
  unfold kept
  rw [List.all_append, hG, Bool.and_true]
  split
  · have hpos : 0 < Fs.length := List.length_pos_iff.mpr hne
    exact List.take_append_of_le_length hpos
  · rw [List.filter_append, filter_eq_nil_of_all_declaredEmpty hG, List.append_nil]

theorem kept_append_of_first_empty {Fs Gs : List Family} (hF : Fs.all declaredEmpty = true)
    (hG : Gs.all declaredEmpty = false) : kept (Fs ++ Gs) = kept Gs := by
  unfold kept
  rw [List.all_append, hF, hG, List.filter_append, filter_eq_nil_of_all_declaredEmpty hF]
  rfl

theorem kept_append_of_nonempty {Fs Gs : List Family} (hF : Fs.all declaredEmpty = false)
    (hG : Gs.all declaredEmpty = false) : kept (Fs ++ Gs) = kept Fs ++ kept Gs := by
  unfold kept
  rw [List.all_append, hF, hG, List.filter_append]
  rfl

/-! ## Declarations that agree with the row count -/

theorem isConsistent_iff : F.isConsistent ↔ (F.declaredEmpty ↔ F.rows = 0) := by
  rw [isConsistent, beq_iff_eq, Bool.eq_iff_iff, RowCount.isZero_iff]

theorem rows_eq_zero_of_declaredEmpty (h : F.isConsistent) (hF : F.declaredEmpty = true) :
    F.rows = 0 :=
  (isConsistent_iff.mp h).mp hF

theorem isConsistent_pair (ha : a.isConsistent) (hb : b.isConsistent) :
    (pair a b).isConsistent := by
  rw [isConsistent_iff] at ha hb ⊢
  rw [rows, RowCount.add_eq_zero_iff, declaredEmpty, Bool.and_eq_true, ha, hb]

theorem isConsistent_combine (ha : a.isConsistent) (hb : b.isConsistent) :
    (a.combine b).isConsistent := by
  cases hbe : b.declaredEmpty with
  | true => rwa [combine_of_second_empty hbe]
  | false =>
    cases hae : a.declaredEmpty with
    | true => rwa [combine_of_first_empty hbe hae]
    | false =>
      rw [combine_of_nonempty hbe hae]
      exact isConsistent_pair ha hb

/-- **No rows are lost with an operand that drops out.** -/
theorem rows_combine (ha : a.isConsistent) (hb : b.isConsistent) :
    (a.combine b).rows = a.rows + b.rows := by
  cases hbe : b.declaredEmpty with
  | true =>
    rw [combine_of_second_empty hbe, rows_eq_zero_of_declaredEmpty hb hbe, RowCount.add_zero]
  | false =>
    cases hae : a.declaredEmpty with
    | true =>
      rw [combine_of_first_empty hbe hae, rows_eq_zero_of_declaredEmpty ha hae, RowCount.zero_add]
    | false => rw [combine_of_nonempty hbe hae, rows]

end Family

namespace Grouping

open Family (kept)

/-- The family that a grouping comes to. -/
def family : Grouping Family → Family
  | operand F => F
  | compose d e => d.family.combine e.family

variable {e : Grouping Family}

theorem declaredEmpty_family (e : Grouping Family) :
    e.family.declaredEmpty = e.operands.all Family.declaredEmpty := by
  induction e with
  | operand F => simp [family, operands]
  | compose d e ihd ihe => rw [family, Family.declaredEmpty_combine, ihd, ihe, operands,
      List.all_append]

/-- **Composition gives a tree of pairs with the operands that stay.** -/
theorem isPairing_family (e : Grouping Family) : e.family.IsPairing (kept e.operands) := by
  induction e with
  | operand F =>
    rw [family, operands]
    have hkept : kept [F] = [F] := by cases hF : F.declaredEmpty <;> simp [kept, hF]
    rw [hkept]
    exact .operand F
  | compose d e ihd ihe =>
    rw [family, operands]
    -- What the two parts declare also says which of the operands stay.
    cases he : e.family.declaredEmpty with
    | true =>
      have hall : e.operands.all Family.declaredEmpty = true := declaredEmpty_family e ▸ he
      rwa [Family.combine_of_second_empty he,
        Family.kept_append_of_second_empty (operands_ne_nil d) hall]
    | false =>
      have hsome : e.operands.all Family.declaredEmpty = false := declaredEmpty_family e ▸ he
      cases hd : d.family.declaredEmpty with
      | true =>
        have hall : d.operands.all Family.declaredEmpty = true := declaredEmpty_family d ▸ hd
        rwa [Family.combine_of_first_empty he hd, Family.kept_append_of_first_empty hall hsome]
      | false =>
        have hsome' : d.operands.all Family.declaredEmpty = false := declaredEmpty_family d ▸ hd
        rw [Family.combine_of_nonempty he hd, Family.kept_append_of_nonempty hsome' hsome]
        exact .pair ihd ihe

theorem leaves_family (e : Grouping Family) :
    e.family.leaves = (kept e.operands).flatMap Family.leaves :=
  e.isPairing_family.leaves_eq

/-! ## Rows -/

theorem isConsistent_family (h : ∀ F ∈ e.operands, F.isConsistent) : e.family.isConsistent := by
  induction e with
  | operand F => exact h F (List.mem_singleton_self F)
  | compose d e ihd ihe =>
    obtain ⟨hd, he⟩ := List.forall_mem_append.mp h
    exact Family.isConsistent_combine (ihd hd) (ihe he)

/-- **Composition keeps the rows of all operands.** -/
theorem rows_family (h : ∀ F ∈ e.operands, F.isConsistent) :
    e.family.rows = (e.operands.map Family.rows).sum := by
  induction e with
  | operand F => simp [family, operands, RowCount.add_zero]
  | compose d e ihd ihe =>
    obtain ⟨hd, he⟩ := List.forall_mem_append.mp h
    rw [family, Family.rows_combine (isConsistent_family hd) (isConsistent_family he), ihd hd,
      ihe he, operands, List.map_append, List.sum_append]

/-! ## Everything but the operands is left behind -/

/--
**What a grouping comes to depends on its list of operands alone.**

The family is a tree of pairs with the operands that stay, for every grouping of the same operands,
and it declares to be empty just where all of them do. If what each operand declares agrees with its
row count, the same is true of the family, and it has the rows of all operands together. That is
what their row counts add up to in counts along every grouping, unless the sum overflows on the way,
and where the fixed ones among them add up to a count it does not.
-/
theorem family_of_operands (e : Grouping Family) :
    e.family.IsPairing (kept e.operands) ∧
    (e.family.declaredEmpty ↔ ∀ F ∈ e.operands, F.declaredEmpty) ∧
    (∀ d : Grouping Family, d.operands = e.operands →
      d.family.IsPairing (kept e.operands) ∧ d.family.leaves = e.family.leaves) ∧
    ((∀ F ∈ e.operands, F.isConsistent) →
      e.family.isConsistent ∧
      e.family.rows = (e.operands.map Family.rows).sum ∧
      ∀ d : Grouping Family, d.operands = e.operands →
        (∀ c, (d.map Family.rows).plus = .ok c → c = e.family.rows) ∧
        (RowCount.fixedSum (e.operands.map Family.rows) ≤ maxCount →
          (d.map Family.rows).plus = .ok e.family.rows)) := by
  refine ⟨e.isPairing_family, ?_, ?_, ?_⟩
  · rw [declaredEmpty_family, List.all_eq_true]
  · intro d hd
    constructor
    · rw [← hd]
      exact d.isPairing_family
    · rw [leaves_family, leaves_family, hd]
  · intro hconsistent
    have hrows := rows_family hconsistent
    refine ⟨isConsistent_family hconsistent, hrows, ?_⟩
    intro d hd
    have hoperands : (d.map Family.rows).operands = e.operands.map Family.rows := by
      rw [operands_map, hd]
    rw [hrows, ← hoperands]
    exact ⟨fun c => eq_sum_of_plus, plus_eq_ok⟩

/-- Of four operands two drop out, and each way to group them gives three rows. -/
theorem family_of_operands_two_empty :
    (compose (compose (operand (.leaf (.column 2))) (operand (.leaf .noInput)))
      (compose (operand (.leaf (.column 0))) (operand (.leaf .gain)))).family.IsPairing
        [.leaf (.column 2), .leaf .gain] ∧
    (compose (compose (operand (.leaf (.column 2))) (operand (.leaf .noInput)))
      (compose (operand (.leaf (.column 0))) (operand (.leaf .gain)))).family.isConsistent ∧
    (compose (operand (.fixed 2)) (compose (operand (.fixed 0))
      (compose (operand (.fixed 0)) (operand (.fixed 1))))).plus = .ok (.fixed 3) := by
  obtain ⟨hpairing, -, -, hrows⟩ := family_of_operands
    (compose (compose (operand (.leaf (.column 2))) (operand (.leaf .noInput)))
      (compose (operand (.leaf (.column 0))) (operand (.leaf .gain))))
  obtain ⟨hconsistent, -, hplus⟩ := hrows (by decide)
  have hsum := (hplus (compose (operand (.leaf (.column 2))) (compose (operand (.leaf .noInput))
    (compose (operand (.leaf (.column 0))) (operand (.leaf .gain))))) rfl).2 (by decide)
  exact ⟨hpairing, hconsistent, hsum⟩

end Grouping

end BlockVector

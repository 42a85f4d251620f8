import BlockVector.Proofs.Family.Grouping
import BlockVector.Proofs.Stacked.Building
import BlockVector.Stacked.Composition

/-!
# Taking apart what was put together

A composed vector stores the operands that have a place in the composition. The others are dropped,
and made anew when they are asked for. Nothing is lost with them if what the families declare agrees
with their row counts: an operand without a place then has no rows (`lossless_of`), and a family
without rows has one vector only (`Stacked.null_eq_ok`).

So every well-formed vector of a lossless composition has been put together from two vectors
(`exists_join_eq`), and these are what it is taken apart into (`first_join`, `second_join`).
-/

namespace BlockVector

namespace Composition

/-- The first operand has a place. -/
def keepsFirst : Composition → Bool
  | both => true
  | firstOnly => true
  | secondOnly => false

/-- The second operand has a place. -/
def keepsSecond : Composition → Bool
  | both => true
  | firstOnly => false
  | secondOnly => true

/-- The operands without a place have no rows. -/
structure Lossless (c : Composition) (a b : Family) : Prop where
  first : c.keepsFirst = false → a.rows = 0
  second : c.keepsSecond = false → b.rows = 0

variable {α : Type u} {a b : Family} {c : Composition}

theorem keepsFirst_of (a b : Family) :
    (of a b).keepsFirst = (b.declaredEmpty || !a.declaredEmpty) := by
  cases hb : b.declaredEmpty with
  | true => rw [of_eq_firstOnly hb, keepsFirst, Bool.true_or]
  | false =>
    cases ha : a.declaredEmpty with
    | true => rw [of_eq_secondOnly hb ha, keepsFirst, Bool.false_or, Bool.not_true]
    | false => rw [of_eq_both hb ha, keepsFirst, Bool.false_or, Bool.not_false]

theorem keepsSecond_of (a b : Family) : (of a b).keepsSecond = !b.declaredEmpty := by
  cases hb : b.declaredEmpty with
  | true => rw [of_eq_firstOnly hb, keepsSecond, Bool.not_true]
  | false =>
    cases ha : a.declaredEmpty with
    | true => rw [of_eq_secondOnly hb ha, keepsSecond, Bool.not_false]
    | false => rw [of_eq_both hb ha, keepsSecond, Bool.not_false]

/-- **Nothing is lost between families that declare their row counts truly.** -/
theorem lossless_of (ha : a.isConsistent) (hb : b.isConsistent) : (of a b).Lossless a b where
  first hdropped := by
    rw [keepsFirst_of, Bool.or_eq_false_iff, Bool.not_eq_false'] at hdropped
    exact Family.rows_eq_zero_of_declaredEmpty ha hdropped.2
  second hdropped := by
    rw [keepsSecond_of, Bool.not_eq_false'] at hdropped
    exact Family.rows_eq_zero_of_declaredEmpty hb hdropped

/-! ## What is put together -/

theorem wellFormed_join {u : Stacked α a} {v : Stacked α b} (hu : u.WellFormed)
    (hv : v.WellFormed) (c : Composition) : (c.join u v).WellFormed := by
  cases c with
  | both => exact ⟨hu, hv⟩
  | firstOnly => exact hu
  | secondOnly => exact hv

theorem toDense_join (hc : c.Lossless a b) {u : Stacked α a} {v : Stacked α b}
    (hu : u.WellFormed) (hv : v.WellFormed) : (c.join u v).toDense = u.toDense ++ v.toDense := by
  cases c with
  | both => rfl
  | firstOnly =>
    rw [hv.toDense_eq_nil (hc.second rfl), List.append_nil]
    rfl
  | secondOnly =>
    rw [hu.toDense_eq_nil (hc.first rfl), List.nil_append]
    rfl

/-- A composed vector has the leaves of the operands with a place. -/
theorem leaves_join (c : Composition) (u : Stacked α a) (v : Stacked α b) :
    (c.join u v).leaves
      = (if c.keepsFirst then u.leaves else []) ++ if c.keepsSecond then v.leaves else [] := by
  cases c with
  | both => rfl
  | firstOnly => exact (List.append_nil u.leaves).symm
  | secondOnly => rfl

/-! ## What it is taken apart into -/

theorem fresh_eq_ok (ha : a.rows = 0) {u : Stacked α a} (hu : u.WellFormed) :
    Part.fresh = .ok ⟨u, false⟩ := by
  rw [Part.fresh, Stacked.null_eq_ok ha hu]
  rfl

/-- **The first operand is what it was**, and it is borrowed just where it has a place. -/
theorem first_join (hc : c.Lossless a b) {u : Stacked α a} (hu : u.WellFormed)
    (v : Stacked α b) : c.first (c.join u v) = .ok ⟨u, c.keepsFirst⟩ := by
  cases c with
  | both => rfl
  | firstOnly => rfl
  | secondOnly => exact fresh_eq_ok (hc.first rfl) hu

/-- **The second operand is what it was**, and it is borrowed just where it has a place. -/
theorem second_join (hc : c.Lossless a b) (u : Stacked α a) {v : Stacked α b}
    (hv : v.WellFormed) : c.second (c.join u v) = .ok ⟨v, c.keepsSecond⟩ := by
  cases c with
  | both => rfl
  | firstOnly => exact fresh_eq_ok (hc.second rfl) hv
  | secondOnly => rfl

/-- **Every well-formed vector of a lossless composition was put together from two.** -/
theorem exists_join_eq (hc : c.Lossless a b) {w : Stacked α (c.family a b)} (hw : w.WellFormed) :
    ∃ u v, u.WellFormed ∧ v.WellFormed ∧ c.join u v = w := by
  cases c with
  | both =>
    cases w with
    | pair u v => exact ⟨u, v, hw.1, hw.2, rfl⟩
  | firstOnly =>
    obtain ⟨v, hv⟩ := Stacked.exists_wellFormed_of_rows_eq_zero (hc.second rfl)
    exact ⟨w, v, hw, hv, rfl⟩
  | secondOnly =>
    obtain ⟨u, hu⟩ := Stacked.exists_wellFormed_of_rows_eq_zero (hc.first rfl)
    exact ⟨u, w, hu, hw, rfl⟩

end Composition

namespace Stacked

variable {α : Type u} {a b : Family}

/--
**A composed vector is taken apart into what it was put together from.**

Both families have the row counts they declare. Then no operation fails. The operands come out of a
composed vector as they went in, its rows are theirs, and every vector of the composed family is put
together again from its operands. Its leaves are those of the borrowed operands: of both where
neither declares to be empty, of the second one where only the first one does, and of the first one
where the second one does.
-/
theorem combine_upper_lower (ha : a.isConsistent) (hb : b.isConsistent) :
    (∀ (u : Stacked α a) (v : Stacked α b), u.WellFormed → v.WellFormed →
      upper a b (u.combine v) = .ok ⟨u, b.declaredEmpty || !a.declaredEmpty⟩ ∧
      lower a b (u.combine v) = .ok ⟨v, !b.declaredEmpty⟩ ∧
      (u.combine v).toDense = u.toDense ++ v.toDense ∧
      (u.combine v).size = u.size + v.size) ∧
    ∀ w : Stacked α (a.combine b), w.WellFormed → ∃ p q,
      upper a b w = .ok p ∧ lower a b w = .ok q ∧
      p.value.WellFormed ∧ q.value.WellFormed ∧ p.value.combine q.value = w ∧
      p.borrowed = (b.declaredEmpty || !a.declaredEmpty) ∧ q.borrowed = !b.declaredEmpty ∧
      w.leaves = (if p.borrowed then p.value.leaves else [])
        ++ if q.borrowed then q.value.leaves else [] := by
  have hc := Composition.lossless_of ha hb
  rw [← Composition.keepsFirst_of, ← Composition.keepsSecond_of]
  constructor
  · intro u v hu hv
    have hdense : (u.combine v).toDense = u.toDense ++ v.toDense :=
      Composition.toDense_join hc hu hv
    have hwf : (u.combine v).WellFormed := Composition.wellFormed_join hu hv _
    refine ⟨Composition.first_join hc hu v, Composition.second_join hc u hv, hdense, ?_⟩
    rw [hwf.size_eq, hdense, List.length_append, hu.size_eq, hv.size_eq]
  · intro w hw
    obtain ⟨u, v, hu, hv, rfl⟩ := Composition.exists_join_eq hc hw
    exact ⟨_, _, Composition.first_join hc hu v, Composition.second_join hc u hv, hu, hv, rfl, rfl,
      rfl, Composition.leaves_join _ u v⟩

/-- A null vector of two parts drops out above a pair, and comes out again. One leaf of the pair
declares to be empty and is not; the pair as a whole declares the truth. -/
theorem combine_upper_lower_null_first :
    (Family.pair (.leaf (.column 0)) (.leaf .noInput)).isConsistent ∧
    (Family.pair (.leaf .falseEmpty) (.leaf .dynamic)).isConsistent ∧
    upper (.pair (.leaf (.column 0)) (.leaf .noInput)) (.pair (.leaf .falseEmpty) (.leaf .dynamic))
      (combine (pair (leaf []) (leaf [])) (pair (leaf [1, 2]) (leaf [3])))
        = .ok ⟨pair (leaf []) (leaf []), false⟩ ∧
    lower (.pair (.leaf (.column 0)) (.leaf .noInput)) (.pair (.leaf .falseEmpty) (.leaf .dynamic))
      (combine (pair (leaf []) (leaf [])) (pair (leaf [1, 2]) (leaf [3])))
        = .ok ⟨pair (leaf [1, 2]) (leaf [3]), true⟩ := by
  have ha : (Family.pair (.leaf (.column 0)) (.leaf .noInput)).isConsistent := by decide
  have hb : (Family.pair (.leaf .falseEmpty) (.leaf .dynamic)).isConsistent := by decide
  obtain ⟨hupper, hlower, -⟩ := (combine_upper_lower (α := Nat) ha hb).1
    (pair (leaf []) (leaf [])) (pair (leaf [1, 2]) (leaf [3])) ⟨rfl, rfl⟩ ⟨rfl, rfl⟩
  exact ⟨ha, hb, hupper, hlower⟩

end Stacked

end BlockVector

import BlockVector.Failure
import BlockVector.Json.Reader
import BlockVector.Json.Writer

/-!
# Counts and row counts

Numbers of rows, positions of rows and distances between them are kept in 64-bit words, and what is
computed with them is checked: a sum or a product of counts is exact where a word holds it
(`Count.add_eq_ok_iff`, `Count.multiply_eq_ok_iff`), and fails everywhere else.

The row count of a family of vectors is a fixed number, or dynamic when only a vector itself can
tell. Row counts add up like the vectors they describe are stacked, and a dynamic part makes the
whole dynamic.

`+` is the exact sum. `RowCount.plus` is the sum as it is computed in counts: `plus_eq_add` says
that it is the exact sum wherever that sum fits, and `plus_eq_overflow` that it fails everywhere
else. That an overflow stops the computation is presupposed, for row counts as for other counts:
where sums are left unchecked they wrap around, and of such sums nothing is said here.
-/

namespace BlockVector

/-! ## Counts -/

/-- The largest count a 64-bit word holds. -/
def maxCount : Nat := 18446744073709551615

namespace Count

/-- The sum of two counts. -/
def add (a b : Nat) : Except Failure Nat :=
  if a + b ≤ maxCount then .ok (a + b) else .error (.overflow .add)

/-- The product of two counts. -/
def multiply (a b : Nat) : Except Failure Nat :=
  if a * b ≤ maxCount then .ok (a * b) else .error (.overflow .multiply)

theorem add_of_le {a b : Nat} (h : a + b ≤ maxCount) : add a b = .ok (a + b) := if_pos h

theorem add_of_lt {a b : Nat} (h : maxCount < a + b) : add a b = .error (.overflow .add) :=
  if_neg (Nat.not_le.mpr h)

theorem multiply_of_le {a b : Nat} (h : a * b ≤ maxCount) : multiply a b = .ok (a * b) := if_pos h

theorem multiply_of_lt {a b : Nat} (h : maxCount < a * b) :
    multiply a b = .error (.overflow .multiply) :=
  if_neg (Nat.not_le.mpr h)

/-- A sum is there just where it fits, and it is exact. -/
theorem add_eq_ok_iff {a b c : Nat} : add a b = .ok c ↔ a + b = c ∧ c ≤ maxCount := by
  unfold add
  split <;> grind

/-- A product is there just where it fits, and it is exact. -/
theorem multiply_eq_ok_iff {a b c : Nat} : multiply a b = .ok c ↔ a * b = c ∧ c ≤ maxCount := by
  unfold multiply
  split <;> grind

end Count

/-! ## Row counts -/

/-- How many rows the vectors of a family have. -/
inductive RowCount where
  /-- Every vector of the family has `rows` rows. -/
  | fixed (rows : Nat)
  /-- Each vector has a number of rows of its own. -/
  | dynamic
  deriving DecidableEq, Repr

namespace RowCount

/-- The number of rows, if it is fixed. -/
def fixed? : RowCount → Option Nat
  | fixed n => some n
  | dynamic => none

/-- Only a vector itself tells how many rows it has. -/
def isDynamic (c : RowCount) : Bool := c = dynamic

/-- The row count of the null vector. -/
def isZero (c : RowCount) : Bool := c = fixed 0

/-- A dense vector of `rows` rows can be a vector with this row count. -/
def admits : RowCount → Nat → Bool
  | fixed n, rows => n = rows
  | dynamic, _ => true

@[simp] theorem fixed_admits_iff {n rows : Nat} : (fixed n).admits rows ↔ n = rows :=
  decide_eq_true_iff

@[simp] theorem dynamic_admits (rows : Nat) : dynamic.admits rows := rfl

/-- The fixed number of rows, or else the number `rows` that a vector itself tells. -/
def orElse (c : RowCount) (rows : Nat) : Nat := c.fixed?.getD rows

/-! ## Sums -/

/-- The row count of one vector above another: the exact sum. -/
def add : RowCount → RowCount → RowCount
  | fixed a, fixed b => fixed (a + b)
  | _, _ => dynamic

instance : Add RowCount := ⟨add⟩

@[simp] theorem fixed_add_fixed (a b : Nat) : fixed a + fixed b = fixed (a + b) := rfl

@[simp] theorem dynamic_add (c : RowCount) : dynamic + c = dynamic := by cases c <;> rfl

@[simp] theorem add_dynamic (c : RowCount) : c + dynamic = dynamic := by cases c <;> rfl

protected theorem add_comm (a b : RowCount) : a + b = b + a := by
  cases a <;> cases b <;> simp [Nat.add_comm]

protected theorem add_assoc (a b c : RowCount) : a + b + c = a + (b + c) := by
  cases a <;> cases b <;> cases c <;> simp [Nat.add_assoc]

/-- A null vector adds no rows. -/
instance : Zero RowCount := ⟨fixed 0⟩

theorem zero_eq_fixed : (0 : RowCount) = fixed 0 := rfl

protected theorem zero_add (c : RowCount) : 0 + c = c := by
  cases c <;> simp [zero_eq_fixed]

protected theorem add_zero (c : RowCount) : c + 0 = c := by
  rw [RowCount.add_comm, RowCount.zero_add]

instance : Std.Associative (α := RowCount) (· + ·) := ⟨RowCount.add_assoc⟩

instance : Std.LawfulLeftIdentity (α := RowCount) (· + ·) 0 where
  left_id := RowCount.zero_add

theorem isZero_iff {c : RowCount} : c.isZero ↔ c = 0 := decide_eq_true_iff

/-- Two row counts add up to none just where both are none. -/
theorem add_eq_zero_iff {a b : RowCount} : a + b = 0 ↔ a = 0 ∧ b = 0 := by
  cases a <;> cases b <;> simp [zero_eq_fixed]

/-- The sum of two row counts in 64-bit words, with overflow checked: it fails when two fixed counts
add up to more. -/
def plus : RowCount → RowCount → Except Failure RowCount
  | fixed a, fixed b => (Count.add a b).map fixed
  | _, _ => .ok dynamic

/-- A row count that a 64-bit word holds. A dynamic one needs no word. -/
def Fits : RowCount → Prop
  | fixed n => n ≤ maxCount
  | dynamic => True

instance (c : RowCount) : Decidable c.Fits := by
  cases c <;> unfold Fits <;> infer_instance

/-- A sum that fits is exact. -/
theorem plus_eq_add {a b : RowCount} (h : (a + b).Fits) : a.plus b = .ok (a + b) := by
  cases a <;> cases b <;> simp_all [plus, Fits, Count.add_of_le, Except.map]

/-- A sum that does not fit fails. -/
theorem plus_eq_overflow {a b : RowCount} (h : ¬ (a + b).Fits) :
    a.plus b = .error (.overflow .add) := by
  cases a <;> cases b <;> simp_all [plus, Fits, Count.add_of_lt, Except.map]

/-- A sum in counts is exact, or it overflows. -/
theorem plus_cases (a b : RowCount) :
    a.plus b = .ok (a + b) ∨ a.plus b = .error (.overflow .add) := by
  by_cases h : (a + b).Fits
  · exact Or.inl (plus_eq_add h)
  · exact Or.inr (plus_eq_overflow h)

/-! ## Text -/

/-- A fixed row count is written in decimal digits, the other one as a word. -/
protected def toString : RowCount → String
  | fixed n => Nat.repr n
  | dynamic => "dynamic"

instance : ToString RowCount := ⟨RowCount.toString⟩

end RowCount

/-! ## JSON -/

/-- The count that a literal denotes: digits alone, and a number that a 64-bit word holds. -/
def Json.Literal.count? (l : Json.Literal) : Option Nat :=
  l.natural?.filter (· ≤ maxCount)

namespace RowCount

/-- A row count as a JSON value. -/
def toJson : RowCount → Json
  | fixed n => .ofMembers [("Fixed", .ofNat n)]
  | dynamic => .ofString "Dynamic"

/-- The row count that a JSON value stands for. -/
def ofJson? : Json → Option RowCount
  | .string s => if s = some "Dynamic" then some dynamic else none
  | .object [(key, .null)] => if key = some "Dynamic" then some dynamic else none
  | .object [(key, .number l)] => if key = some "Fixed" then l.count?.map fixed else none
  | _ => none

/-- The row count that a JSON text stands for. -/
def ofText? (s : String) : Option RowCount := (Json.ofText? s).bind ofJson?

end RowCount

end BlockVector

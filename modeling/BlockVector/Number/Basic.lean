import BlockVector.Number.Format

/-!
# Floating-point numbers

A number of a binary format: a signed magnitude, a signed infinity, or no number at all. All
arithmetic is exact arithmetic on rationals followed by one rounding.
-/

namespace BlockVector

/-- A number of the format `f`. -/
inductive Number (f : Format) where
  /-- Not a number: what an operation without a meaningful result gives. -/
  | nan
  | infinite (negative : Bool)
  /-- A signed magnitude. Zero has a sign as well. -/
  | finite (negative : Bool) (rank : Fin f.magnitudes)
  deriving DecidableEq, Repr

namespace Number

variable {f : Format}

/-! ## Rounding -/

/-- The number with a sign and the rank of a magnitude; past the last rank it is infinite. -/
def ofRank (f : Format) (negative : Bool) (rank : Nat) : Number f :=
  if h : rank < f.magnitudes then finite negative ⟨rank, h⟩ else infinite negative

theorem ofRank_ne_nan (f : Format) (negative : Bool) (rank : Nat) :
    ofRank f negative rank ≠ nan := by
  unfold ofRank
  split
  · exact nofun
  · exact nofun

/-- The number nearest to a magnitude with a sign. -/
def round (f : Format) (negative : Bool) (magnitude : Rat) : Number f :=
  ofRank f negative (f.nearest magnitude)

/-- The number nearest to a rational. -/
def ofRat (f : Format) (q : Rat) : Number f := round f (q < 0) q.abs

/-- Positive zero. -/
def zero (f : Format) : Number f := ofRank f false 0

/-- The same number in another format, rounded. -/
def convert (g : Format) : Number f → Number g
  | nan => nan
  | infinite negative => infinite negative
  | finite negative rank => round g negative (f.magnitude rank)

/-! ## Words -/

/-- The word of the sign bit. -/
def signWord (f : Format) : Nat := Nat.pow 2 f.exponentBits * f.binadeSize

/-- The number that a word denotes. -/
def ofWord (f : Format) (w : Nat) : Number f :=
  let negative := decide (signWord f ≤ w)
  let rank := w % signWord f
  if h : rank < f.magnitudes then finite negative ⟨rank, h⟩
  else if rank = f.magnitudes then infinite negative
  else nan

/-- The word that denotes a number; what is not a number has no word of its own. -/
def word? : Number f → Option Nat
  | nan => none
  | infinite negative => some ((if negative then signWord f else 0) + f.magnitudes)
  | finite negative rank => some ((if negative then signWord f else 0) + rank)

/-- The word of a number reads back as the number. -/
theorem ofWord_of_word? {x : Number f} {w : Nat} (h : x.word? = some w) : ofWord f w = x := by
  have hsize : 0 < f.binadeSize := Nat.pow_pos (by decide)
  have hfull : f.magnitudes + f.binadeSize = signWord f := by
    have hpos : 1 ≤ Nat.pow 2 f.exponentBits := Nat.pow_pos (by decide)
    rw [Format.magnitudes, signWord, ← Nat.succ_mul, Nat.succ_eq_add_one, Nat.sub_add_cancel hpos]
  have hlow {r : Nat} (hr : r ≤ f.magnitudes) : r < signWord f := by omega
  cases x with
  | nan => cases h
  | infinite negative =>
    cases h
    have hlt := hlow (Nat.le_refl _)
    cases negative <;> simp [ofWord, Nat.mod_eq_of_lt hlt, Nat.not_le.2 hlt]
  | finite negative rank =>
    cases h
    have hlt := hlow (Nat.le_of_lt rank.isLt)
    cases negative <;> simp [ofWord, Nat.mod_eq_of_lt hlt, Nat.not_le.2 hlt]

/-! ## Value and order -/

/-- The rational that a finite number denotes. -/
def value? : Number f → Option Rat
  | finite negative rank => some ((if negative then -1 else 1) * f.magnitude rank)
  | _ => none

/-- Neither infinite nor nan. -/
def isFinite : Number f → Bool
  | finite .. => true
  | _ => false

def isInfinite : Number f → Bool
  | infinite _ => true
  | _ => false

/-- The place of a number on the line of all numbers. The two zeros share one, and what is not a
number has none. -/
def place? : Number f → Option Int
  | nan => none
  | infinite negative => some ((if negative then -1 else 1) * f.magnitudes)
  | finite negative rank => some ((if negative then -1 else 1) * (rank : Nat))

/-- Compares two numbers by their places. Nothing holds of what is not a number. -/
def compare (r : Int → Int → Bool) (a b : Number f) : Bool :=
  match a.place?, b.place? with
  | some x, some y => r x y
  | _, _ => false

/-- Numerically equal. The two zeros are, and nan is not equal to itself. -/
def equal (a b : Number f) : Bool := compare (· = ·) a b

/-- At most. -/
def atMost (a b : Number f) : Bool := compare (· ≤ ·) a b

/-- Less than. -/
def less (a b : Number f) : Bool := compare (· < ·) a b

theorem equal_self_iff {x : Number f} : x.equal x ↔ x ≠ nan := by
  cases x <;> simp [equal, compare, place?]

/-! ## Arithmetic -/

/-- The number without its sign. -/
def abs : Number f → Number f
  | nan => nan
  | infinite _ => infinite false
  | finite _ rank => finite false rank

/-- **Numerically equal are a number and itself, nan excepted, and the two zeros.** -/
theorem equal_iff {x y : Number f} :
    x.equal y ↔ x ≠ nan ∧ (x = y ∨ x.abs = zero f ∧ y.abs = zero f) := by
  have hpos := f.magnitudes_pos
  have hzero : zero f = finite false ⟨0, hpos⟩ := dif_pos hpos
  cases x with
  | nan => simp [equal, compare, place?]
  | infinite a =>
    cases y with
    | nan => simp [equal, compare, place?, abs, hzero]
    | infinite b => cases a <;> cases b <;> simp [equal, compare, place?, abs, hzero] <;> omega
    | finite b s => cases a <;> cases b <;> simp [equal, compare, place?, abs, hzero] <;> omega
  | finite a r =>
    cases y with
    | nan => simp [equal, compare, place?, abs, hzero]
    | infinite b => cases a <;> cases b <;> simp [equal, compare, place?, abs, hzero] <;> omega
    | finite b s =>
      cases a <;> cases b <;> simp [equal, compare, place?, abs, hzero, Fin.ext_iff] <;> omega

/-- The absolute value of the difference. -/
def distance : Number f → Number f → Number f
  | nan, _ => nan
  | _, nan => nan
  | infinite a, infinite b => if a = b then nan else infinite false
  | infinite _, finite .. => infinite false
  | finite .., infinite _ => infinite false
  | finite a x, finite b y =>
    if a = b then round f false (f.magnitude x - f.magnitude y).abs
    else round f false (f.magnitude x + f.magnitude y)

/-- The product. -/
def mul : Number f → Number f → Number f
  | nan, _ => nan
  | _, nan => nan
  | infinite a, infinite b => infinite (a != b)
  | infinite a, finite b y => if y.val = 0 then nan else infinite (a != b)
  | finite a x, infinite b => if x.val = 0 then nan else infinite (a != b)
  | finite a x, finite b y => round f (a != b) (f.magnitude x * f.magnitude y)

end Number

end BlockVector

import BlockVector.Number.Format
import BlockVector.Decimal

/-!
# Shortest decimals

The decimal with the fewest digits that still names a given magnitude: one that rounds to it. For
one digit, two digits and so on, the two decimals around the magnitude are tried; on the first grid
where one of them rounds to the magnitude it is taken, and of two the nearer one. Exactly half-way
between two of them a `Tie` decides.

The exact value of a magnitude is a decimal, so the search cannot come out empty-handed: where no
grid has a hit, the exact decimal stands in. So what comes out rounds to the magnitude in any
case (`nearest_shortest`).
-/

namespace BlockVector

namespace Format

/-- The decimal rounds to the magnitude of the rank. -/
def readsBack (f : Format) (rank : Nat) (d : Decimal) : Bool := f.nearest d.value = rank

/-- The decimal with `10 ^ exponent` as the place of its last digit that is taken for a magnitude:
of its two neighbours on that grid the nearer one that rounds to the magnitude. -/
def onGrid? (f : Format) (tie : Tie) (rank : Nat) (exponent : Int) : Option Decimal :=
  let scaled := f.magnitude rank / (10 : Rat) ^ exponent
  let nearer := roundNearest tie scaled
  let other := 2 * scaled.floor.toNat + 1 - nearer
  [⟨nearer, exponent⟩, ⟨other, exponent⟩].find? (f.readsBack rank)

/-- The exact value of a magnitude: a fraction over a power of two has finitely many decimal
digits. -/
def exactDecimal (f : Format) (rank : Nat) : Decimal :=
  ⟨f.units rank * Nat.pow 5 f.unitExponent, -f.unitExponent⟩

/-- The shortest decimal that rounds to a magnitude. -/
def shortest (f : Format) (tie : Tie) (rank : Nat) : Decimal :=
  let place := Decimal.floorPlace (f.magnitude rank)
  let grids := (List.range f.precision).map fun (more : Nat) => place - more
  ((grids.findSome? (f.onGrid? tie rank)).getD (f.exactDecimal rank)).trimmed

/-! ## The shortest decimal rounds to the magnitude -/

theorem fivePow_mul_twoPow (k : Nat) : (5 : Rat) ^ k * 2 ^ k = 10 ^ k := by
  induction k with
  | zero => simp
  | succ k ih =>
    simp only [Rat.pow_succ, ← ih]
    grind

theorem value_exactDecimal (f : Format) (rank : Nat) :
    (f.exactDecimal rank).value = f.magnitude rank := by
  have htwo := twoPow_ne_zero f.unitExponent
  have hfive : (5 : Rat) ^ f.unitExponent ≠ 0 := by
    have h := Rat.pow_pos (a := 5) (n := f.unitExponent) (by decide)
    grind
  have hcast : ((5 : Nat) : Rat) = 5 := rfl
  simp only [exactDecimal, Decimal.value, magnitude, Nat.pow_eq, Rat.natCast_mul, Rat.natCast_pow,
    Rat.zpow_neg, Rat.zpow_natCast, ← fivePow_mul_twoPow, hcast]
  grind

/-- **The shortest decimal rounds to the magnitude that it stands for.** -/
theorem nearest_shortest (f : Format) (tie : Tie) (rank : Nat) :
    f.nearest (f.shortest tie rank).value = rank := by
  simp only [shortest, Decimal.value_trimmed]
  generalize hfound : List.findSome? (f.onGrid? tie rank) _ = found
  cases found with
  | none => rw [Option.getD_none, value_exactDecimal, nearest_magnitude]
  | some d =>
    obtain ⟨exponent, -, hd⟩ := List.exists_of_findSome?_eq_some hfound
    have hback : f.readsBack rank d := List.find?_some hd
    simpa [readsBack] using hback

end Format

end BlockVector

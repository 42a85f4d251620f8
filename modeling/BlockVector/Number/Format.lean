/-!
# Binary number formats

A format lists finitely many magnitudes in increasing order, and a number is named by its place in
that list, its rank. The ranks are cut into runs of equal length, the binades. Within a binade the
magnitudes are evenly spaced, and from one binade to the next the spacing doubles. The first two
binades share one spacing: it is the smallest positive magnitude, the unit of the format.

With the binade and the place inside it written one after the other, the rank *is* the word that
holds the magnitude. So no packing is needed: `rank ↦ magnitude` is monotone, and the next rank is
the next magnitude.

Rounding is to the nearest magnitude, and half-way to the one of even rank (`Format.nearest`). It
rests on rounding to the nearest natural number (`roundNearest`), where a `Tie` decides half-way.
-/

namespace BlockVector

/-! ## Rounding to a natural number -/

/-- Which of two equally near natural numbers is taken. -/
inductive Tie where
  /-- The larger one. -/
  | up
  /-- The even one. -/
  | even
  deriving DecidableEq, Repr

/-- The natural number nearest to a rational that is not negative. -/
def roundNearest (tie : Tie) (q : Rat) : Nat :=
  let low := q.floor.toNat
  if q - low < 1 / 2 then low
  else if 1 / 2 < q - low then low + 1
  else match tie with
    | .up => low + 1
    | .even => if low % 2 = 0 then low else low + 1

/-- A natural number is its own floor. -/
theorem toNat_floor_natCast (n : Nat) : (n : Rat).floor.toNat = n := by
  rw [← Rat.intCast_natCast, Rat.floor_intCast]
  rfl

/-- A natural number is rounded to itself. -/
@[simp] theorem roundNearest_natCast (tie : Tie) (n : Nat) : roundNearest tie n = n := by
  have h : (n : Rat) - (n : Rat) < 1 / 2 := by grind
  simp only [roundNearest, toNat_floor_natCast, if_pos h]

/-! ## Formats -/

/-- A binary floating-point format. -/
structure Format where
  /-- Significant bits. -/
  precision : Nat
  /-- Bits of the exponent. -/
  exponentBits : Nat
  one_lt_precision : 1 < precision := by decide
  one_lt_exponentBits : 1 < exponentBits := by decide
  deriving DecidableEq, Repr

namespace Format

/-- Double precision, in 64 bits. -/
def binary64 : Format := { precision := 53, exponentBits := 11 }

/-- Single precision, in 32 bits. -/
def binary32 : Format := { precision := 24, exponentBits := 8 }

/-- The number of magnitudes in a binade. -/
def binadeSize (f : Format) : Nat := Nat.pow 2 (f.precision - 1)

/-- The number of finite magnitudes. Infinity is the next word after them. -/
def magnitudes (f : Format) : Nat := (Nat.pow 2 f.exponentBits - 1) * f.binadeSize

theorem magnitudes_pos (f : Format) : 0 < f.magnitudes := by
  have hbinades : Nat.pow 2 1 < Nat.pow 2 f.exponentBits :=
    Nat.pow_lt_pow_right (by decide) f.one_lt_exponentBits
  exact Nat.mul_pos (Nat.sub_pos_of_lt (Nat.lt_trans (by decide) hbinades)) (Nat.two_pow_pos _)

/-- The smallest positive magnitude is two to minus this power. -/
def unitExponent (f : Format) : Nat := Nat.pow 2 (f.exponentBits - 1) + f.precision - 3

/-- The magnitude of a rank, counted in units. -/
def units (f : Format) (rank : Nat) : Nat :=
  if rank < f.binadeSize then rank
  else (f.binadeSize + rank % f.binadeSize) * Nat.pow 2 (rank / f.binadeSize - 1)

/-- The magnitude of a rank. -/
def magnitude (f : Format) (rank : Nat) : Rat := f.units rank / 2 ^ f.unitExponent

/-- The rank of the magnitude nearest to a rational that is not negative. The list of magnitudes is
taken to go on for ever, so a rational past its end gets a rank past its end. -/
def nearest (f : Format) (q : Rat) : Nat :=
  let scaled := q * 2 ^ f.unitExponent
  let doublings := scaled.floor.toNat.log2 + 1 - f.precision
  doublings * f.binadeSize + roundNearest .even (scaled / 2 ^ doublings)

/-! ## Rounding a magnitude -/

theorem twoPow_ne_zero (k : Nat) : (2 : Rat) ^ k ≠ 0 := by
  have h := Rat.pow_pos (a := 2) (n := k) (by decide)
  grind

/-- **A magnitude is rounded to itself.** -/
theorem nearest_magnitude (f : Format) (rank : Nat) : f.nearest (f.magnitude rank) = rank := by
  have hprecision := f.one_lt_precision
  have hsize : f.binadeSize = 2 ^ (f.precision - 1) := rfl
  have hscaled : f.magnitude rank * 2 ^ f.unitExponent = ((f.units rank : Nat) : Rat) :=
    Rat.div_mul_cancel (twoPow_ne_zero _)
  unfold nearest
  simp only [hscaled, toNat_floor_natCast]
  by_cases h : rank < f.binadeSize
  · have hunits : f.units rank = rank := by simp [units, h]
    have hdoublings : rank.log2 + 1 - f.precision = 0 := by
      by_cases hzero : rank = 0
      · subst hzero
        simp
        omega
      · have := (Nat.log2_lt hzero (k := f.precision - 1)).2 h
        omega
    have hquotient : ((rank : Nat) : Rat) / 2 ^ 0 = ((rank : Nat) : Rat) := by grind
    rw [hunits, hdoublings, hquotient, roundNearest_natCast]
    omega
  · have hpos : 0 < f.binadeSize := Nat.pow_pos (by decide)
    have hbinade : 1 ≤ rank / f.binadeSize := (Nat.one_le_div_iff hpos).2 (by omega)
    have hunits : f.units rank
        = (f.binadeSize + rank % f.binadeSize) * 2 ^ (rank / f.binadeSize - 1) := by
      simp [units, h]
    have hmod := Nat.mod_lt rank hpos
    have hlog : (f.units rank).log2 = f.precision - 1 + (rank / f.binadeSize - 1) := by
      have hscale : 0 < 2 ^ (rank / f.binadeSize - 1) := Nat.pow_pos (by decide)
      have hne : f.units rank ≠ 0 := by
        rw [hunits]
        exact Nat.ne_of_gt (Nat.mul_pos (by omega) hscale)
      rw [Nat.log2_eq_iff hne, hunits]
      constructor
      · rw [Nat.pow_add, ← hsize]
        exact Nat.mul_le_mul_right _ (by omega)
      · rw [show f.precision - 1 + (rank / f.binadeSize - 1) + 1
          = (f.precision - 1) + 1 + (rank / f.binadeSize - 1) by omega, Nat.pow_add, Nat.pow_succ,
          ← hsize]
        exact Nat.mul_lt_mul_of_pos_right (by omega) hscale
    have hdoublings : f.precision - 1 + (rank / f.binadeSize - 1) + 1 - f.precision
        = rank / f.binadeSize - 1 := by omega
    have hquotient : ((f.units rank : Nat) : Rat) / 2 ^ (rank / f.binadeSize - 1)
        = ((f.binadeSize + rank % f.binadeSize : Nat) : Rat) := by
      rw [hunits, Rat.natCast_mul, Rat.natCast_pow]
      exact Rat.mul_div_cancel (twoPow_ne_zero _)
    rw [hlog, hdoublings, hquotient, roundNearest_natCast]
    have hdivMod := Nat.div_add_mod rank f.binadeSize
    have hsplit : (rank / f.binadeSize - 1) * f.binadeSize + f.binadeSize
        = f.binadeSize * (rank / f.binadeSize) := by
      rw [← Nat.succ_mul, Nat.succ_eq_add_one, Nat.sub_add_cancel hbinade, Nat.mul_comm]
    omega

end Format

end BlockVector

import BlockVector.Number.Format

/-!
# Rounding keeps the order

A larger rational is never rounded to a smaller magnitude (`Format.nearest_mono`). With
`Format.nearest_magnitude` this gives all else: the magnitudes increase with their ranks
(`Format.magnitude_le_magnitude_iff`), and what lies between two magnitudes is rounded to a rank
between theirs.

A fraction over a power of two is a magnitude itself if its numerator has no more bits than the
format keeps (`Format.magnitude_nearest`).
-/

namespace BlockVector

/-! ## Quotients -/

theorem div_le_iff {a b c : Rat} (hb : 0 < b) : a / b ≤ c ↔ a ≤ c * b := by
  rw [← Rat.not_lt, Rat.lt_div_iff hb, Rat.not_lt]

theorem le_div_iff {a b c : Rat} (hb : 0 < b) : c ≤ a / b ↔ c * b ≤ a := by
  rw [← Rat.not_lt, Rat.div_lt_iff hb, Rat.not_lt]

theorem div_le_div_right {a b c : Rat} (h : a ≤ b) (hc : 0 < c) : a / c ≤ b / c := by
  rw [div_le_iff hc, Rat.div_mul_cancel (Rat.ne_of_gt hc)]
  exact h

theorem twoPow_pos (k : Nat) : (0 : Rat) < 2 ^ k := Rat.pow_pos (by decide)

theorem natCast_twoPow (k : Nat) : (Nat.pow 2 k : Rat) = 2 ^ k := Rat.natCast_pow 2 k

theorem twoPow_add (m n : Nat) : (2 : Rat) ^ (m + n) = 2 ^ m * 2 ^ n := by
  rw [← natCast_twoPow, ← natCast_twoPow, ← natCast_twoPow, ← Rat.natCast_mul]
  congr 1
  exact Nat.pow_add 2 m n

/-! ## Rounding to a natural number -/

theorem floor_nonneg {q : Rat} (hq : 0 ≤ q) : 0 ≤ q.floor := Rat.le_floor_iff.mpr hq

theorem cast_toNat_floor {q : Rat} (hq : 0 ≤ q) : (q.floor.toNat : Rat) = (q.floor : Rat) := by
  rw [← Rat.intCast_natCast, Int.toNat_of_nonneg (floor_nonneg hq)]

theorem toNat_floor_le {q : Rat} (hq : 0 ≤ q) : (q.floor.toNat : Rat) ≤ q := by
  rw [cast_toNat_floor hq]
  exact Rat.floor_le q

theorem toNat_floor_mono {p q : Rat} (h : p ≤ q) : p.floor.toNat ≤ q.floor.toNat :=
  Int.toNat_le_toNat (Rat.floor_monotone h)

theorem le_toNat_floor_iff {n : Nat} {q : Rat} (hq : 0 ≤ q) :
    n ≤ q.floor.toNat ↔ (n : Rat) ≤ q := by
  rw [Int.le_toNat (floor_nonneg hq), Rat.le_floor_iff, Rat.intCast_natCast]

/-- A rational is rounded to its floor or to the next number. -/
theorem roundNearest_bounds (tie : Tie) (q : Rat) :
    q.floor.toNat ≤ roundNearest tie q ∧ roundNearest tie q ≤ q.floor.toNat + 1 := by
  unfold roundNearest
  grind

/-- **Rounding to a natural number keeps the order.** -/
theorem roundNearest_mono (tie : Tie) {p q : Rat} (h : p ≤ q) :
    roundNearest tie p ≤ roundNearest tie q := by
  have hfloor := toNat_floor_mono h
  obtain hlt | heq := Nat.lt_or_eq_of_le hfloor
  · have hp := (roundNearest_bounds tie p).2
    have hq := (roundNearest_bounds tie q).1
    omega
  · by_cases hlow : p - p.floor.toNat < 1 / 2
    · have hp : roundNearest tie p = p.floor.toNat := if_pos hlow
      have hq := (roundNearest_bounds tie q).1
      omega
    · by_cases hhigh : 1 / 2 < q - q.floor.toNat
      · have hnot : ¬ q - q.floor.toNat < 1 / 2 := by grind
        have hq : roundNearest tie q = q.floor.toNat + 1 := by
          simp only [roundNearest, if_neg hnot, if_pos hhigh]
        have hp := (roundNearest_bounds tie p).2
        omega
      · -- Neither is nearer to one side, so both are half-way, at the same place.
        have hpq : p = q := by grind
        exact Nat.le_of_eq (congrArg (roundNearest tie) hpq)

theorem roundNearest_le (tie : Tie) {q : Rat} {n : Nat} (h : q ≤ n) : roundNearest tie q ≤ n := by
  have hmono := roundNearest_mono tie h
  rwa [roundNearest_natCast] at hmono

theorem le_roundNearest (tie : Tie) {q : Rat} {n : Nat} (h : (n : Rat) ≤ q) :
    n ≤ roundNearest tie q := by
  have hmono := roundNearest_mono tie h
  rwa [roundNearest_natCast] at hmono

namespace Format

/-! ## Rounding to a magnitude -/

variable (f : Format)

/-- How often a rational, counted in units, is halved until it has no more bits than a magnitude
keeps. -/
def doublings (scaled : Rat) : Nat := scaled.floor.toNat.log2 + 1 - f.precision

theorem nearest_eq (q : Rat) :
    f.nearest q = f.doublings (q * 2 ^ f.unitExponent) * f.binadeSize
      + roundNearest .even
        (q * 2 ^ f.unitExponent / 2 ^ f.doublings (q * 2 ^ f.unitExponent)) := rfl

theorem two_mul_binadeSize : 2 * f.binadeSize = Nat.pow 2 f.precision := by
  have hprecision := f.one_lt_precision
  rw [binadeSize, Nat.pow_eq, Nat.pow_eq, ← Nat.pow_succ', Nat.succ_eq_add_one,
    Nat.sub_add_cancel (Nat.le_of_lt hprecision)]

theorem doublings_mono {s t : Rat} (h : s ≤ t) : f.doublings s ≤ f.doublings t := by
  have hfloor := toNat_floor_mono h
  by_cases hzero : s.floor.toNat = 0
  · have hprecision := f.one_lt_precision
    rw [doublings, hzero, Nat.log2_zero]
    omega
  · have hlog : s.floor.toNat.log2 ≤ t.floor.toNat.log2 :=
      (Nat.le_log2 (by omega)).mpr (Nat.le_trans (Nat.log2_self_le hzero) hfloor)
    unfold doublings
    omega

/-- Halved so often, a rational has no more bits than a magnitude keeps. -/
theorem halved_le {s : Rat} (hs : 0 ≤ s) :
    s / 2 ^ f.doublings s ≤ (2 * f.binadeSize : Nat) := by
  refine (div_le_iff (twoPow_pos _)).mpr (Rat.le_of_lt ?_)
  rw [← natCast_twoPow, ← Rat.natCast_mul, ← Rat.not_le, ← le_toNat_floor_iff hs, Nat.not_le,
    two_mul_binadeSize, Nat.pow_eq, Nat.pow_eq, ← Nat.pow_add]
  refine Nat.lt_of_lt_of_le Nat.lt_log2_self (Nat.pow_le_pow_right (by decide) ?_)
  unfold doublings
  omega

/-- It has just as many if it was halved at all. -/
theorem le_halved {s : Rat} (hs : 0 ≤ s) (h : 0 < f.doublings s) :
    (f.binadeSize : Rat) ≤ s / 2 ^ f.doublings s := by
  have hprecision := f.one_lt_precision
  have hlog : f.precision - 1 + f.doublings s = s.floor.toNat.log2 := by
    unfold doublings at *
    omega
  have hne : s.floor.toNat ≠ 0 := by
    intro hzero
    rw [doublings, hzero, Nat.log2_zero] at h
    omega
  rw [le_div_iff (twoPow_pos _), ← natCast_twoPow, ← Rat.natCast_mul, ← le_toNat_floor_iff hs,
    binadeSize, Nat.pow_eq, Nat.pow_eq, ← Nat.pow_add, hlog]
  exact Nat.log2_self_le hne

/-- **Rounding to a magnitude keeps the order.** -/
theorem nearest_mono {p q : Rat} (hp : 0 ≤ p) (h : p ≤ q) : f.nearest p ≤ f.nearest q := by
  have hunit := twoPow_pos f.unitExponent
  have hscaled : p * 2 ^ f.unitExponent ≤ q * 2 ^ f.unitExponent :=
    Rat.mul_le_mul_of_nonneg_right h (Rat.le_of_lt hunit)
  have hnonneg : 0 ≤ p * 2 ^ f.unitExponent := Rat.mul_nonneg hp (Rat.le_of_lt hunit)
  rw [nearest_eq, nearest_eq]
  generalize p * 2 ^ f.unitExponent = s at *
  generalize q * 2 ^ f.unitExponent = t at *
  obtain hlt | heq := Nat.lt_or_eq_of_le (f.doublings_mono hscaled)
  · have hs := roundNearest_le .even (f.halved_le hnonneg)
    have ht := le_roundNearest .even
      (f.le_halved (Rat.le_trans hnonneg hscaled) (by omega))
    have hstep := Nat.mul_le_mul_right f.binadeSize (Nat.succ_le_of_lt hlt)
    rw [Nat.succ_mul] at hstep
    omega
  · rw [heq]
    have hhalved : s / 2 ^ f.doublings t ≤ t / 2 ^ f.doublings t :=
      div_le_div_right hscaled (twoPow_pos _)
    exact Nat.add_le_add_left (roundNearest_mono .even hhalved) _

/-- Less than half a unit is rounded to zero. -/
theorem nearest_eq_zero {q : Rat} (hq : 0 ≤ q) (h : q * 2 ^ f.unitExponent < 1 / 2) :
    f.nearest q = 0 := by
  have hunit := twoPow_pos f.unitExponent
  have hnonneg : 0 ≤ q * 2 ^ f.unitExponent := Rat.mul_nonneg hq (Rat.le_of_lt hunit)
  rw [nearest_eq]
  generalize q * 2 ^ f.unitExponent = s at *
  have hfloor : s.floor.toNat = 0 := by
    have hle := toNat_floor_le hnonneg
    have hlt : ((s.floor.toNat : Nat) : Rat) < (1 : Nat) := by grind
    have := Rat.natCast_lt_natCast.mp hlt
    omega
  have hprecision := f.one_lt_precision
  have hdoublings : f.doublings s = 0 := by
    rw [doublings, hfloor, Nat.log2_zero]
    omega
  have hhalved : s / 2 ^ 0 = s := by grind
  have hround : roundNearest .even s = 0 := by
    have hlow : s - ((s.floor.toNat : Nat) : Rat) < 1 / 2 := by
      rw [hfloor]
      grind
    rw [roundNearest, if_pos hlow, hfloor]
  rw [hdoublings, hhalved, hround, Nat.zero_mul]

/-! ## Magnitudes -/

theorem magnitude_nonneg (rank : Nat) : 0 ≤ f.magnitude rank :=
  (le_div_iff (twoPow_pos _)).mpr (by rw [Rat.zero_mul]; exact Rat.natCast_nonneg)

/-- What is at least a magnitude is rounded to at least its rank. -/
theorem le_nearest {q : Rat} {rank : Nat} (h : f.magnitude rank ≤ q) : rank ≤ f.nearest q := by
  have hmono := f.nearest_mono (f.magnitude_nonneg rank) h
  rwa [nearest_magnitude] at hmono

/-- What is at most a magnitude is rounded to at most its rank. -/
theorem nearest_le {q : Rat} {rank : Nat} (hq : 0 ≤ q) (h : q ≤ f.magnitude rank) :
    f.nearest q ≤ rank := by
  have hmono := f.nearest_mono hq h
  rwa [nearest_magnitude] at hmono

/-- **The magnitudes increase with their ranks.** -/
theorem magnitude_le_magnitude_iff {r r' : Nat} :
    f.magnitude r ≤ f.magnitude r' ↔ r ≤ r' := by
  constructor
  · intro h
    have hle := f.le_nearest h
    rwa [nearest_magnitude] at hle
  · intro h
    refine Rat.not_lt.mp fun hlt => ?_
    have hle := f.le_nearest (Rat.le_of_lt hlt)
    rw [nearest_magnitude] at hle
    have heq : r = r' := Nat.le_antisymm h hle
    subst heq
    exact Rat.lt_irrefl hlt

theorem binadeSize_pos : 0 < f.binadeSize := Nat.pow_pos (by decide)

/-- The magnitudes of a binade after the first, counted in units. -/
theorem units_binade (binade : Nat) {place : Nat} (h : place < f.binadeSize) :
    f.units ((binade + 1) * f.binadeSize + place) = (f.binadeSize + place) * Nat.pow 2 binade := by
  have hsize := f.binadeSize_pos
  have hnot : ¬ (binade + 1) * f.binadeSize + place < f.binadeSize := by
    rw [Nat.succ_mul]
    omega
  have hmod : ((binade + 1) * f.binadeSize + place) % f.binadeSize = place := by
    rw [Nat.mul_comm, Nat.mul_add_mod, Nat.mod_eq_of_lt h]
  have hdiv : ((binade + 1) * f.binadeSize + place) / f.binadeSize = binade + 1 := by
    rw [Nat.mul_comm, Nat.mul_add_div hsize, Nat.div_eq_of_lt h, Nat.add_zero]
  rw [units, if_neg hnot, hmod, hdiv]
  rfl

/-- The first number past the magnitudes. -/
theorem magnitude_magnitudes : f.magnitude f.magnitudes = 2 ^ Nat.pow 2 (f.exponentBits - 1) := by
  have hprecision := f.one_lt_precision
  have hbits := f.one_lt_exponentBits
  have hdouble : Nat.pow 2 f.exponentBits = 2 * Nat.pow 2 (f.exponentBits - 1) := by
    rw [Nat.pow_eq, Nat.pow_eq, ← Nat.pow_succ', Nat.succ_eq_add_one,
      Nat.sub_add_cancel (Nat.le_of_lt hbits)]
  have htwo : 2 ≤ Nat.pow 2 (f.exponentBits - 1) := Nat.le_self_pow (by omega) 2
  have hunits : f.units f.magnitudes
      = Nat.pow 2 (Nat.pow 2 (f.exponentBits - 1) + f.unitExponent) := by
    have hlast : Nat.pow 2 f.exponentBits - 1 = Nat.pow 2 f.exponentBits - 2 + 1 := by omega
    have hexponent : Nat.pow 2 (f.exponentBits - 1) + f.unitExponent
        = f.precision - 1 + (Nat.pow 2 f.exponentBits - 2) := by
      rw [unitExponent]
      omega
    have hbinade := f.units_binade (Nat.pow 2 f.exponentBits - 2) f.binadeSize_pos
    rw [Nat.add_zero, Nat.add_zero, ← hlast] at hbinade
    rw [magnitudes, hbinade, hexponent]
    exact (Nat.pow_add 2 _ _).symm
  rw [magnitude, hunits, natCast_twoPow, twoPow_add, Rat.mul_div_cancel (twoPow_ne_zero _)]

/-- A number of units that has few enough bits, but for zeros at its end, is a magnitude. -/
theorem exists_units_eq {significand : Nat} (h : significand < 2 * f.binadeSize) (zeros : Nat) :
    ∃ rank, f.units rank = significand * Nat.pow 2 zeros := by
  induction zeros generalizing significand with
  | zero =>
    by_cases hlow : significand < f.binadeSize
    · exact ⟨significand, by simp [units, hlow]⟩
    · refine ⟨significand, ?_⟩
      have hplace : significand - f.binadeSize < f.binadeSize := by omega
      have hbinade := f.units_binade 0 hplace
      rwa [Nat.zero_add, Nat.one_mul, Nat.add_sub_cancel' (Nat.le_of_not_lt hlow)] at hbinade
  | succ zeros ih =>
    by_cases hlow : significand < f.binadeSize
    · have hdouble : 2 * significand < 2 * f.binadeSize := by omega
      obtain ⟨rank, hrank⟩ := ih hdouble
      refine ⟨rank, ?_⟩
      rw [hrank, Nat.pow_eq, Nat.pow_eq, Nat.pow_succ', Nat.mul_left_comm, Nat.mul_assoc]
    · refine ⟨(zeros + 1 + 1) * f.binadeSize + (significand - f.binadeSize), ?_⟩
      rw [f.units_binade (zeros + 1) (by omega), Nat.add_sub_cancel' (Nat.le_of_not_lt hlow)]

/-- **A fraction over a power of two is a magnitude if its numerator has few enough bits.** -/
theorem magnitude_nearest {significand k : Nat} (h : significand < 2 * f.binadeSize)
    (hk : k ≤ f.unitExponent) :
    f.magnitude (f.nearest (significand / 2 ^ k)) = significand / 2 ^ k := by
  obtain ⟨rank, hrank⟩ := f.exists_units_eq h (f.unitExponent - k)
  have hmagnitude : f.magnitude rank = significand / 2 ^ k := by
    have hunit : (2 : Rat) ^ f.unitExponent = 2 ^ (f.unitExponent - k) * 2 ^ k := by
      rw [← twoPow_add, Nat.sub_add_cancel hk]
    have hzeros := twoPow_ne_zero (f.unitExponent - k)
    have hpower := twoPow_ne_zero k
    rw [magnitude, hrank, Rat.natCast_mul, natCast_twoPow, hunit]
    grind
  rw [← hmagnitude, nearest_magnitude]

/-! ## One -/

/-- The rank of the magnitude 1. -/
def one : Nat := f.nearest 1

theorem magnitude_one : f.magnitude f.one = 1 := by
  have hsize := f.binadeSize_pos
  have hone : ((1 : Nat) : Rat) / 2 ^ 0 = 1 := by grind
  have h : f.magnitude (f.nearest (((1 : Nat) : Rat) / 2 ^ 0)) = ((1 : Nat) : Rat) / 2 ^ 0 :=
    f.magnitude_nearest (by omega) (Nat.zero_le _)
  rwa [hone] at h

theorem one_lt_magnitudes : f.one < f.magnitudes := by
  have hpower : 1 < Nat.pow 2 (Nat.pow 2 (f.exponentBits - 1)) :=
    Nat.one_lt_two_pow (Nat.ne_of_gt (Nat.two_pow_pos _))
  rw [← Nat.not_le, ← f.magnitude_le_magnitude_iff, f.magnitude_one, f.magnitude_magnitudes,
    ← natCast_twoPow]
  intro hle
  have := Rat.natCast_le_natCast (b := 1).mp hle
  omega

theorem eq_one_of_magnitude_eq {rank : Nat} (h : f.magnitude rank = 1) : rank = f.one := by
  rw [← f.nearest_magnitude rank, h, one]

end Format

end BlockVector

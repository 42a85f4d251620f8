import BlockVector.Scalar
import BlockVector.Stacked.Random
import BlockVector.Proofs.Number.Rounding

/-!
# The range of a random coordinate

The point that a word chooses is a number of double precision (`magnitude_nearest_point`). So a
coordinate is the point itself or, in another format, the number nearest to it (`coordinate_eq`). It
stays between -1 and 1, as both are numbers of every format and rounding keeps the order.

Single precision rounds the points next to 1 up to 1. They are those of the words whose first 26
bits are ones (`value?_coordinate_single_eq_one_iff`).
-/

namespace BlockVector

namespace Number

variable {f : Format}

theorem abs_le_one {q : Rat} (hlow : -1 ≤ q) (hhigh : q ≤ 1) : q.abs ≤ 1 := by
  unfold Rat.abs
  split
  · exact hhigh
  · grind

/-- What lies between -1 and 1 is rounded to a finite number. -/
theorem ofRat_eq_finite {q : Rat} (h : q.abs ≤ 1) :
    ∃ rank : Fin f.magnitudes, ofRat f q = finite (q < 0) rank ∧ rank.val = f.nearest q.abs := by
  rw [← f.magnitude_one] at h
  have hlt : f.nearest q.abs < f.magnitudes :=
    Nat.lt_of_le_of_lt (f.nearest_le Rat.abs_nonneg h) f.one_lt_magnitudes
  exact ⟨⟨_, hlt⟩, dif_pos hlt, rfl⟩

theorem value?_ofRat {q : Rat} (h : q.abs ≤ 1) :
    (ofRat f q).value? = some ((if q < 0 then -1 else 1) * f.magnitude (f.nearest q.abs)) := by
  obtain ⟨rank, hrank, hnearest⟩ := ofRat_eq_finite (f := f) h
  rw [hrank, value?, hnearest]
  simp only [decide_eq_true_eq]

/-- **What lies between -1 and 1 stays there when it is rounded.** -/
theorem exists_value?_ofRat {q : Rat} (h : q.abs ≤ 1) :
    ∃ c, (ofRat f q).value? = some c ∧ -1 ≤ c ∧ c ≤ 1 := by
  refine ⟨_, value?_ofRat h, ?_⟩
  have hnonneg := f.magnitude_nonneg (f.nearest q.abs)
  have hle : f.magnitude (f.nearest q.abs) ≤ 1 := by
    rw [← f.magnitude_one] at h ⊢
    exact f.magnitude_le_magnitude_iff.mpr (f.nearest_le Rat.abs_nonneg h)
  split
  · grind
  · grind

/-- A magnitude keeps its value when it is rounded. -/
theorem value?_ofRat_of_magnitude {q : Rat} (h : q.abs ≤ 1)
    (hexact : f.magnitude (f.nearest q.abs) = q.abs) : (ofRat f q).value? = some q := by
  rw [value?_ofRat h, hexact, Rat.abs]
  congr 1
  split
  · grind
  · grind

/-- What is rounded to 1 is positive, and its rank is no lower than that of 1. -/
theorem value?_ofRat_eq_one_iff {q : Rat} (h : q.abs ≤ 1) :
    (ofRat f q).value? = some 1 ↔ 0 ≤ q ∧ f.one ≤ f.nearest q := by
  rw [value?_ofRat h, Option.some.injEq]
  have hnonneg := f.magnitude_nonneg (f.nearest q.abs)
  constructor
  · intro hone
    have hq : 0 ≤ q := by grind
    rw [if_neg (Rat.not_lt.mpr hq), Rat.one_mul, Rat.abs_of_nonneg hq] at hone
    have heq : f.nearest q = f.one := f.eq_one_of_magnitude_eq hone
    exact ⟨hq, Nat.le_of_eq heq.symm⟩
  · rintro ⟨hq, hle⟩
    rw [Rat.abs_of_nonneg hq] at h ⊢
    rw [← f.magnitude_one] at h
    have heq : f.nearest q = f.one := Nat.le_antisymm (f.nearest_le hq h) hle
    rw [if_neg (Rat.not_lt.mpr hq), Rat.one_mul, heq, f.magnitude_one]

end Number

namespace Random

theorem toNat_shiftRight (word : UInt64) : (word >>> 12).toNat = word.toNat / 4096 := by
  rw [UInt64.toNat_shiftRight, Nat.shiftRight_eq_div_pow]
  rfl

theorem point_eq (word : UInt64) :
    point word = ((word.toNat / 4096 : Nat) : Rat) / 2251799813685248 - 1 := by
  rw [point, toNat_shiftRight]
  grind

theorem toNat_div_lt (word : UInt64) : word.toNat / 4096 < 4503599627370496 := by
  have h := word.toNat_lt
  omega

theorem point_bounds (word : UInt64) : -1 ≤ point word ∧ point word < 1 := by
  have hlow : (0 : Rat) ≤ ((word.toNat / 4096 : Nat) : Rat) := Rat.natCast_nonneg
  have hhigh := Rat.natCast_lt_natCast.mpr (toNat_div_lt word)
  rw [point_eq]
  constructor
  · grind
  · grind

/-- The distance of a point from zero is a number of steps of equal length. -/
theorem exists_abs_point (word : UInt64) :
    ∃ steps : Nat, steps ≤ 2251799813685248 ∧ (point word).abs = steps / 2251799813685248 := by
  have hlt := toNat_div_lt word
  have hnonneg (steps : Nat) : (0 : Rat) ≤ steps / 2251799813685248 := by
    have h : (0 : Rat) ≤ steps := Rat.natCast_nonneg
    grind
  rw [point_eq]
  obtain hle | hle := Nat.le_total 2251799813685248 (word.toNat / 4096)
  · obtain ⟨steps, hsteps⟩ := Nat.exists_eq_add_of_le hle
    have hpoint : ((word.toNat / 4096 : Nat) : Rat) / 2251799813685248 - 1
        = steps / 2251799813685248 := by
      rw [hsteps, Rat.natCast_add]
      grind
    exact ⟨steps, by omega, by rw [hpoint, Rat.abs_of_nonneg (hnonneg steps)]⟩
  · obtain ⟨steps, hsteps⟩ := Nat.exists_eq_add_of_le hle
    have hcast : (2251799813685248 : Rat) = (word.toNat / 4096 : Nat) + steps := by
      rw [← Rat.natCast_add, ← hsteps]
      rfl
    have hpoint : ((word.toNat / 4096 : Nat) : Rat) / 2251799813685248 - 1
        = -(steps / 2251799813685248) := by
      grind
    exact ⟨steps, by omega, by rw [hpoint, Rat.abs_neg, Rat.abs_of_nonneg (hnonneg steps)]⟩

/-- **The point of a word is a number of double precision.** -/
theorem magnitude_nearest_point (word : UInt64) :
    Format.binary64.magnitude (Format.binary64.nearest (point word).abs) = (point word).abs := by
  obtain ⟨steps, hsteps, habs⟩ := exists_abs_point word
  have hsize : Format.binary64.binadeSize = 4503599627370496 := rfl
  have hunit : (2251799813685248 : Rat) = 2 ^ 51 := by grind
  rw [habs, hunit]
  exact Format.binary64.magnitude_nearest (by omega) (by decide)

theorem abs_point_le (word : UInt64) : (point word).abs ≤ 1 := by
  obtain ⟨hlow, hhigh⟩ := point_bounds word
  exact Number.abs_le_one hlow (Rat.le_of_lt hhigh)

/-- **A coordinate is the number nearest to its point.** -/
theorem coordinate_eq (f : Format) (word : UInt64) :
    coordinate f word = Number.ofRat f (point word) := by
  obtain ⟨rank, hrank, hnearest⟩ := Number.ofRat_eq_finite (f := .binary64) (abs_point_le word)
  rw [coordinate, hrank, Number.convert, hnearest, magnitude_nearest_point]
  rfl

/-- In double precision a coordinate is its point. -/
theorem value?_coordinate_double (word : UInt64) :
    (coordinate .binary64 word).value? = some (point word) := by
  rw [coordinate_eq]
  exact Number.value?_ofRat_of_magnitude (abs_point_le word) (magnitude_nearest_point word)

/-- In single precision a coordinate is 1 just where the word begins with 26 ones. Half-way below 1
the even rank is that of 1, and the next point below is nearer to the rank before. -/
theorem value?_coordinate_single_eq_one_iff (word : UInt64) :
    (coordinate .binary32 word).value? = some 1 ↔ 18446743798831644672 ≤ word.toNat := by
  have hone : Format.binary32.nearest (1 - 1 / 33554432) = Format.binary32.one := by
    decide +kernel
  have hless : Format.binary32.nearest (1 - 1 / 33554432 - 1 / 2251799813685248)
      < Format.binary32.one := by
    decide +kernel
  rw [coordinate_eq, Number.value?_ofRat_eq_one_iff (abs_point_le word), point_eq]
  constructor
  · rintro ⟨hnonneg, hle⟩
    refine Nat.not_lt.mp fun hlt => ?_
    have hsteps : ((word.toNat / 4096 : Nat) : Rat) ≤ (4503599560261631 : Nat) :=
      Rat.natCast_le_natCast.mpr (by omega)
    have hpoint : ((word.toNat / 4096 : Nat) : Rat) / 2251799813685248 - 1
        ≤ 1 - 1 / 33554432 - 1 / 2251799813685248 := by
      grind
    have := Format.binary32.nearest_mono hnonneg hpoint
    omega
  · intro hle
    have hsteps : ((4503599560261632 : Nat) : Rat) ≤ (word.toNat / 4096 : Nat) :=
      Rat.natCast_le_natCast.mpr (by omega)
    have hpoint : 1 - 1 / 33554432 ≤ ((word.toNat / 4096 : Nat) : Rat) / 2251799813685248 - 1 := by
      grind
    refine ⟨by grind, ?_⟩
    rw [← hone]
    exact Format.binary32.nearest_mono (by grind) hpoint

/-- **A coordinate lies between -1 and 1**, and it is 1 in single precision only, where the word
begins with 26 ones. -/
theorem exists_value?_coordinate (s : Scalar) (word : UInt64) :
    ∃ c, (coordinate s.format word).value? = some c ∧ -1 ≤ c ∧ c ≤ 1 ∧
      (c = 1 ↔ s = .single ∧ 18446743798831644672 ≤ word.toNat) := by
  have hrange := Number.exists_value?_ofRat (f := s.format) (abs_point_le word)
  rw [← coordinate_eq] at hrange
  obtain ⟨c, hc, hlow, hhigh⟩ := hrange
  refine ⟨c, hc, hlow, hhigh, ?_⟩
  cases s with
  | single =>
    have hiff : (coordinate (Scalar.format .single) word).value? = some 1
        ↔ 18446743798831644672 ≤ word.toNat := value?_coordinate_single_eq_one_iff word
    rw [hc, Option.some.injEq] at hiff
    simp [hiff]
  | double =>
    have hpoint : some (point word) = some c := (value?_coordinate_double word).symm.trans hc
    have hlt := (point_bounds word).2
    rw [Option.some.inj hpoint] at hlt
    simp [Rat.ne_of_lt hlt]

end Random

end BlockVector

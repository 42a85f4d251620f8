import BlockVector.Decimal
import BlockVector.Proofs.Json.Literal

/-!
# Decimals and their digits

How large a decimal is can be told from its exponent and the number of its digits
(`tenPow_le_value`, `value_le_tenPow`).

In positional notation a decimal is one row of digits, cut where the point stands
(`positional_append`). The row denotes the significand, with the zeros behind it that a positive
exponent asks for (`value_layout`), and the zeros in front of it are no more than are needed to have
a digit before the point (`isWhole_positional_fst`).
-/

namespace BlockVector

/-! ## Powers of ten -/

theorem tenPow_pos (e : Int) : (0 : Rat) < 10 ^ e := Rat.zpow_pos (by decide)

theorem natCast_tenPow (n : Nat) : (Nat.pow 10 n : Rat) = 10 ^ (n : Int) := by
  rw [Nat.pow_eq, Rat.natCast_pow, Rat.zpow_natCast]
  rfl

theorem tenPow_add (m n : Int) : (10 : Rat) ^ (m + n) = 10 ^ m * 10 ^ n :=
  Rat.zpow_add (by decide) m n

theorem tenPow_le_tenPow {m n : Int} (h : m ≤ n) : (10 : Rat) ^ m ≤ 10 ^ n := by
  obtain ⟨k, rfl⟩ := Int.le.dest h
  have hone : (1 : Rat) ≤ 10 ^ (k : Int) := by
    rw [← natCast_tenPow]
    exact Rat.natCast_le_natCast (a := 1).mpr (Nat.pow_pos (by decide))
  have hscaled := Rat.mul_le_mul_of_nonneg_left hone (Rat.le_of_lt (tenPow_pos m))
  rwa [Rat.mul_one, ← tenPow_add] at hscaled

namespace Decimal

theorem value_nonneg (d : Decimal) : 0 ≤ d.value :=
  Rat.mul_nonneg Rat.natCast_nonneg (Rat.le_of_lt (tenPow_pos _))

theorem value_eq_zero {d : Decimal} (h : d.significand = 0) : d.value = 0 := by
  rw [value, h]
  exact Rat.zero_mul _

/-- A decimal that is not zero is at least the power of ten of its last place. -/
theorem tenPow_le_value {d : Decimal} (h : d.significand ≠ 0) :
    (10 : Rat) ^ d.exponent ≤ d.value := by
  have hone : (1 : Rat) ≤ d.significand :=
    Rat.natCast_le_natCast (a := 1).mpr (Nat.pos_of_ne_zero h)
  have hscaled := Rat.mul_le_mul_of_nonneg_right hone (Rat.le_of_lt (tenPow_pos d.exponent))
  rwa [Rat.one_mul] at hscaled

/-- A decimal of few digits is at most the power of ten above its first place. -/
theorem value_le_tenPow {d : Decimal} {n : Nat} (h : d.significand < Nat.pow 10 n) :
    d.value ≤ (10 : Rat) ^ (n + d.exponent) := by
  have hcast : (d.significand : Rat) ≤ 10 ^ (n : Int) := by
    rw [← natCast_tenPow, Rat.natCast_le_natCast]
    exact Nat.le_of_lt h
  rw [tenPow_add]
  exact Rat.mul_le_mul_of_nonneg_right hcast (Rat.le_of_lt (tenPow_pos d.exponent))

/-- A trimmed decimal is zero in one form only. -/
theorem exponent_trimmed (d : Decimal) (h : d.trimmed.significand = 0) :
    d.trimmed.exponent = 0 := by
  fun_induction trimmed d with
  | case1 => rfl
  | case2 d _ _ ih => exact ih h
  | case3 d hne => exact absurd h hne

/-! ## Positional notation -/

open Json (Literal)

variable (d : Decimal)

/-- The digits behind the point. -/
def places : Nat := (-d.exponent).toNat

/-- All digits of the positional notation. -/
def layout : List Char :=
  List.replicate (d.places + 1 - d.digits.length) '0' ++ d.digits
    ++ List.replicate d.exponent.toNat '0'

theorem positional_eq :
    d.positional = (d.layout.take (d.layout.length - d.places),
      d.layout.drop (d.layout.length - d.places)) := rfl

theorem positional_append : d.positional.1 ++ d.positional.2 = d.layout := by
  rw [positional_eq]
  exact List.take_append_drop _ _

theorem length_digits_pos : 0 < d.digits.length := List.length_pos_iff.mpr Nat.toDigits_ne_nil

theorem places_lt_length_layout : d.places < d.layout.length := by
  simp only [layout, List.length_append, List.length_replicate]
  omega

theorem length_positional_snd : d.positional.2.length = d.places := by
  have hlt := d.places_lt_length_layout
  rw [positional_eq, List.length_drop]
  omega

theorem value_digits : Literal.value d.digits = d.significand := Literal.value_toDigits _

theorem value_layout :
    Literal.value d.layout = Nat.pow 10 d.exponent.toNat * d.significand := by
  rw [layout, Literal.value_append, Literal.value_append, Literal.value_replicate_zero,
    Literal.value_replicate_zero, value_digits, List.length_replicate, Nat.mul_zero, Nat.zero_add,
    Nat.add_zero]

theorem isDigit_layout : ∀ c ∈ d.layout, c.isDigit := by
  intro c hc
  simp only [layout, List.mem_append, List.mem_replicate] at hc
  obtain (⟨-, rfl⟩ | hc) | ⟨-, rfl⟩ := hc
  · rfl
  · exact (Literal.isDigits_toDigits _).2 c hc
  · rfl

theorem length_positional_fst : d.positional.1.length = d.layout.length - d.places := by
  rw [positional_eq, List.length_take]
  omega

theorem length_layout_of_padded (h : d.digits.length ≤ d.places) :
    d.layout.length = d.places + 1 := by
  have hpos := d.length_digits_pos
  simp only [layout, List.length_append, List.length_replicate]
  unfold places at *
  omega

/-- Where no zeros are needed in front, the notation begins with the first digit. -/
theorem head?_positional_fst (h : d.places < d.digits.length) :
    d.positional.1.head? = d.digits.head? := by
  have hlt := d.places_lt_length_layout
  have hpad : d.places + 1 - d.digits.length = 0 := by omega
  rw [positional_eq, List.head?_take, if_neg (by omega), layout, hpad, List.replicate_zero,
    List.nil_append]
  exact (Literal.isDigits_toDigits d.significand).head?_append _

/-- The digits before the point have no zero in front, unless the zero is all there is. -/
theorem isWhole_positional_fst (h : d.significand = 0 → d.exponent = 0) :
    Literal.IsWhole d.positional.1 := by
  have hlength := d.length_positional_fst
  have hlt := d.places_lt_length_layout
  refine ⟨⟨List.length_pos_iff.mp (by omega), ?_⟩, fun hhead => ?_⟩
  · intro c hc
    exact d.isDigit_layout c (List.mem_of_mem_take hc)
  · have hone : d.positional.1.length = 1 := by
      by_cases hpad : d.digits.length ≤ d.places
      · rw [hlength, d.length_layout_of_padded hpad]
        omega
      · -- The first digit is zero, so the number is, and it is written without other digits.
        rw [d.head?_positional_fst (by omega)] at hhead
        have hdigits : d.digits = ['0'] :=
          (Literal.isWhole_toDigits d.significand).eq_zero_of_head? hhead
        have hexponent : d.exponent = 0 := h (by rw [← d.value_digits, hdigits]; rfl)
        simp [hlength, layout, places, hdigits, hexponent]
    obtain ⟨c, hc⟩ := List.length_eq_one_iff.mp hone
    rw [hc] at hhead ⊢
    rw [Option.some.inj hhead]

end Decimal

end BlockVector

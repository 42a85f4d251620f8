/-!
# Decimal numbers

A natural number times a power of ten, and its positional notation: the digits before and after the
point, without an exponent.
-/

namespace BlockVector

/-- The number `significand · 10 ^ exponent`. -/
structure Decimal where
  significand : Nat
  exponent : Int
  deriving DecidableEq, Repr

namespace Decimal

/-- The rational that a decimal number denotes. -/
def value (d : Decimal) : Rat := d.significand * (10 : Rat) ^ d.exponent

/-- The digits of the significand. -/
def digits (d : Decimal) : List Char := Nat.toDigits 10 d.significand

/-- The power of ten that the leading digit stands for. -/
def leadingPlace (d : Decimal) : Int := d.exponent + d.digits.length - 1

/-- The same number without zeros at the end of its significand. -/
def trimmed (d : Decimal) : Decimal :=
  if d.significand = 0 then ⟨0, 0⟩
  else if d.significand % 10 = 0 then trimmed ⟨d.significand / 10, d.exponent + 1⟩
  else d
termination_by d.significand
decreasing_by omega

theorem value_trimmed (d : Decimal) : d.trimmed.value = d.value := by
  fun_induction trimmed d with
  | case1 d h => simp [value, h]
  | case2 d _ hmod ih =>
    have hten : (d.significand : Rat) = ((d.significand / 10 : Nat) : Rat) * 10 := by
      have h : d.significand = d.significand / 10 * 10 := by omega
      conv => lhs; rw [h]
      rw [Rat.natCast_mul]
      rfl
    rw [ih]
    simp only [value]
    rw [hten, Rat.zpow_add_one (by decide)]
    grind
  | case3 => rfl

/-- The digits before and after the point. There is at least one before it, and there are as many
after it as the exponent asks for. -/
def positional (d : Decimal) : List Char × List Char :=
  let places := (-d.exponent).toNat
  let digits := List.replicate (places + 1 - d.digits.length) '0' ++ d.digits
    ++ List.replicate d.exponent.toNat '0'
  (digits.take (digits.length - places), digits.drop (digits.length - places))

/-- The digits before and after a point, which is written only where a digit follows it. -/
def pointed (parts : List Char × List Char) : List Char :=
  parts.1 ++ (if parts.2 = [] then [] else '.' :: parts.2)

/-- The power of ten at or below a positive rational. -/
def floorPlace (q : Rat) : Int :=
  let estimate : Int := (Nat.toDigits 10 q.num.natAbs).length - (Nat.toDigits 10 q.den).length
  if (10 : Rat) ^ estimate ≤ q then estimate else estimate - 1

end Decimal

end BlockVector

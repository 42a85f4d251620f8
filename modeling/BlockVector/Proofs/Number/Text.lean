import BlockVector.Number.Text
import BlockVector.Proofs.Decimal
import BlockVector.Proofs.Json.Value
import BlockVector.Proofs.Number.Rounding

/-!
# Numbers read back from their text

A literal denotes a decimal (`Literal.decimal`), and is read as the number nearest to it: bringing
its exponent into range first makes no difference (`round_clampExponent`). The literal that is
written for a decimal denotes this decimal again (`value_decimal_literal`). So a finite number,
which is written with a decimal that rounds to it, is read back (`isReader_ofJson?`).

Running text has the same decimals, but for the way of a tie, and so it names its number as well
(`exists_literal_text`).
-/

namespace BlockVector

namespace Json.Literal

/-- The decimal that a literal denotes, but for its sign. -/
def decimal (l : Literal) : Decimal :=
  ⟨value (l.whole ++ l.fraction), l.exponent.getD 0 - l.fraction.length⟩

end Json.Literal

namespace Number

variable {f : Format}

/-! ## Exponents out of range -/

/-- A power of two is at most as large as that power of ten. -/
theorem twoPow_le_tenPow {m n : Nat} (h : m ≤ n) : (2 : Rat) ^ m ≤ 10 ^ (n : Int) := by
  rw [← natCast_twoPow, ← natCast_tenPow, Rat.natCast_le_natCast]
  exact Nat.le_trans (Nat.pow_le_pow_right (by decide) h) (Nat.pow_le_pow_left (by decide) n)

/-- The power of ten from which on every number is infinite. -/
def exponentBound (f : Format) : Nat := Nat.pow 2 f.exponentBits + f.precision

theorem clampExponent_eq (digits : Nat) (e : Int) :
    clampExponent f digits e
      = max (-((exponentBound f : Int) + digits)) (min e (exponentBound f)) := by
  simp [clampExponent, exponentBound]

theorem unitExponent_add_two_le (f : Format) : f.unitExponent + 2 ≤ exponentBound f := by
  have hhalf : Nat.pow 2 (f.exponentBits - 1) ≤ Nat.pow 2 f.exponentBits :=
    Nat.pow_le_pow_right (by decide) (Nat.sub_le _ _)
  have hpos : 0 < Nat.pow 2 (f.exponentBits - 1) := Nat.two_pow_pos _
  have hprecision := f.one_lt_precision
  rw [Format.unitExponent, exponentBound]
  omega

/-- From the bound on, every number is infinite. -/
theorem round_of_tenPow_le {negative : Bool} {q : Rat}
    (h : (10 : Rat) ^ (exponentBound f : Int) ≤ q) : round f negative q = infinite negative := by
  have hexponent : Nat.pow 2 (f.exponentBits - 1) ≤ exponentBound f :=
    Nat.le_trans (Nat.pow_le_pow_right (by decide) (Nat.sub_le _ _)) (Nat.le_add_right _ _)
  have hlast : f.magnitude f.magnitudes ≤ q := by
    rw [f.magnitude_magnitudes]
    exact Rat.le_trans (twoPow_le_tenPow hexponent) h
  exact dif_neg (Nat.not_lt.mpr (f.le_nearest hlast))

/-- Below the bound to the other side, every number is zero. -/
theorem nearest_of_le_tenPow {q : Rat} (hq : 0 ≤ q)
    (h : q ≤ (10 : Rat) ^ (-(exponentBound f : Int))) : f.nearest q = 0 := by
  refine f.nearest_eq_zero hq ?_
  have hcancel : (10 : Rat) ^ (-(exponentBound f : Int)) * 10 ^ (exponentBound f : Int) = 1 := by
    rw [← tenPow_add, Int.add_left_neg, Rat.zpow_zero]
  have hone : q * 10 ^ (exponentBound f : Int) ≤ 1 := by
    rw [← hcancel]
    exact Rat.mul_le_mul_of_nonneg_right h (Rat.le_of_lt (tenPow_pos _))
  have htwo : q * 2 ^ (f.unitExponent + 2) ≤ q * 10 ^ (exponentBound f : Int) :=
    Rat.mul_le_mul_of_nonneg_left (twoPow_le_tenPow (unitExponent_add_two_le f)) hq
  rw [Rat.pow_succ, Rat.pow_succ] at htwo
  grind

/-- **An exponent out of range makes no difference.** -/
theorem round_clampExponent (negative : Bool) {d : Decimal} {n : Nat}
    (h : d.significand < Nat.pow 10 n) :
    round f negative (Decimal.value ⟨d.significand, clampExponent f n d.exponent⟩)
      = round f negative d.value := by
  have hclamp := clampExponent_eq (f := f) n d.exponent
  generalize clampExponent f n d.exponent = e at *
  by_cases hhigh : (exponentBound f : Int) < d.exponent
  · by_cases hzero : d.significand = 0
    · have hclamped : Decimal.value ⟨d.significand, e⟩ = 0 := Decimal.value_eq_zero hzero
      rw [hclamped, Decimal.value_eq_zero hzero]
    · have he : e = exponentBound f := by omega
      have hclamped : (10 : Rat) ^ e ≤ Decimal.value ⟨d.significand, e⟩ :=
        Decimal.tenPow_le_value hzero
      rw [round_of_tenPow_le (he ▸ hclamped), round_of_tenPow_le]
      exact Rat.le_trans (tenPow_le_tenPow (Int.le_of_lt hhigh)) (Decimal.tenPow_le_value hzero)
  · by_cases hlow : d.exponent < -((exponentBound f : Int) + n)
    · have hclamped : Decimal.value ⟨d.significand, e⟩ ≤ (10 : Rat) ^ ((n : Int) + e) :=
        Decimal.value_le_tenPow h
      rw [round, round, nearest_of_le_tenPow (Decimal.value_nonneg _),
        nearest_of_le_tenPow (Decimal.value_nonneg _)]
      · exact Rat.le_trans (Decimal.value_le_tenPow h) (tenPow_le_tenPow (by omega))
      · exact Rat.le_trans hclamped (tenPow_le_tenPow (by omega))
    · have he : e = d.exponent := by omega
      rw [he]

/-- **A literal is read as the number nearest to its decimal**, unless it is a wide negative
integer. -/
theorem ofLiteral_eq_round {l : Json.Literal} (hl : l.IsProper) (hwide : isWideNegative l = false) :
    ofLiteral f l = round f l.negative l.decimal.value := by
  have hdigits : ∀ c ∈ l.whole ++ l.fraction, c.isDigit :=
    List.forall_mem_append.mpr ⟨hl.1.isDigits.2, hl.2⟩
  rw [ofLiteral, if_neg (by simp [hwide])]
  exact round_clampExponent (d := l.decimal) l.negative (Json.Literal.value_lt_tenPow hdigits)

/-! ## The literal of a decimal -/

/-- The literal has at least one digit after the point, or an exponent. -/
theorem isWideNegative_literal (w : Window) (negative : Bool) (d : Decimal) :
    isWideNegative (literal w negative d) = false := by
  unfold literal
  split
  · split
    · simp [isWideNegative]
    · next hne => simp [isWideNegative, hne]
  · simp [isWideNegative]

theorem negative_literal (w : Window) (negative : Bool) (d : Decimal) :
    (literal w negative d).negative = negative := by
  unfold literal
  split <;> rfl

theorem isProper_literal (w : Window) (negative : Bool) {d : Decimal}
    (h : d.significand = 0 → d.exponent = 0) : (literal w negative d).IsProper := by
  unfold literal
  split
  · refine ⟨d.isWhole_positional_fst h, ?_⟩
    show ∀ c ∈ if d.positional.2 = [] then ['0'] else d.positional.2, c.isDigit
    split
    · exact List.forall_mem_singleton.mpr rfl
    · intro c hc
      exact d.isDigit_layout c (List.mem_of_mem_drop hc)
  · have hdigits : Json.Literal.IsDigits d.digits := Json.Literal.isDigits_toDigits d.significand
    obtain ⟨c, rest, hd⟩ := List.exists_cons_of_ne_nil hdigits.1
    rw [hd] at hdigits ⊢
    obtain ⟨hc, hrest⟩ := List.forall_mem_cons.mp hdigits.2
    refine ⟨⟨⟨List.cons_ne_nil _ _, ?_⟩, ?_⟩, hrest⟩
    · exact List.forall_mem_singleton.mpr hc
    · intro hhead
      rw [Option.some.inj hhead]
      rfl

/-- With an exponent, all digits of the decimal are written, one of them before the point. -/
theorem decimal_of_exponent (negative : Bool) (d : Decimal) :
    Json.Literal.decimal ⟨negative, d.digits.take 1, d.digits.drop 1, some d.leadingPlace⟩ = d := by
  have hpos := d.length_digits_pos
  rw [Json.Literal.decimal, List.take_append_drop, d.value_digits, Option.getD_some,
    List.length_drop, Decimal.leadingPlace]
  congr 1
  omega

/-- A decimal with digits behind the point ends with its last digit. -/
theorem decimal_of_positional (negative : Bool) {d : Decimal} (h : d.positional.2 ≠ []) :
    Json.Literal.decimal ⟨negative, d.positional.1, d.positional.2, none⟩ = d := by
  have hlength := d.length_positional_snd
  have hplaces : (d.places : Int) = -d.exponent := by
    have hpos := List.length_pos_iff.mpr h
    unfold Decimal.places at *
    omega
  rw [Json.Literal.decimal, d.positional_append, d.value_layout, hlength, Option.getD_none, hplaces,
    Int.toNat_of_nonpos (by omega), Nat.pow_eq, Nat.pow_zero, Nat.one_mul, Int.zero_sub,
    Int.neg_neg]

/-- A zero behind the point makes no difference. -/
theorem value_decimal_zero (negative : Bool) (whole : List Char) :
    (Json.Literal.decimal ⟨negative, whole, ['0'], none⟩).value
      = (Json.Literal.decimal ⟨negative, whole, [], none⟩).value := by
  have hzero : Json.Literal.value ['0'] = 0 := by decide
  have hten : (10 : Rat) ^ ((1 : Nat) : Int) * 10 ^ (0 - ((1 : Nat) : Int)) = 1 := by
    rw [← tenPow_add]
    rfl
  simp only [Json.Literal.decimal, Decimal.value, Json.Literal.value_append, hzero, Nat.add_zero,
    Option.getD_none, List.length_singleton, List.append_nil, List.length_nil]
  rw [Rat.natCast_mul, natCast_tenPow]
  grind

/-- A whole number is written with all its digits before the point. -/
theorem value_decimal_of_whole (negative : Bool) {d : Decimal} (h : d.positional.2 = []) :
    (Json.Literal.decimal ⟨negative, d.positional.1, [], none⟩).value = d.value := by
  have hexponent : (d.exponent.toNat : Int) = d.exponent := by
    have hlength := d.length_positional_snd
    rw [h, List.length_nil, Decimal.places] at hlength
    omega
  have hlayout := d.positional_append
  rw [h, List.append_nil] at hlayout
  simp only [Json.Literal.decimal, Decimal.value, hlayout, List.append_nil, d.value_layout,
    Option.getD_none, List.length_nil]
  rw [Rat.natCast_mul, natCast_tenPow, hexponent]
  grind

/-- **The positional notation of a decimal denotes it.** -/
theorem value_decimal_positional (negative : Bool) (d : Decimal) :
    (Json.Literal.decimal ⟨negative, d.positional.1, d.positional.2, none⟩).value = d.value := by
  by_cases hwhole : d.positional.2 = []
  · rw [hwhole, value_decimal_of_whole negative hwhole]
  · rw [decimal_of_positional negative hwhole]

/-- **The literal of a decimal denotes it.** -/
theorem value_decimal_literal (w : Window) (negative : Bool) (d : Decimal) :
    (literal w negative d).decimal.value = d.value := by
  unfold literal
  split
  · split
    · next hwhole => rw [value_decimal_zero, value_decimal_of_whole negative hwhole]
    · rw [value_decimal_positional]
  · rw [decimal_of_exponent]

/-! ## Reading what was written -/

/-- What is written for a finite number is read as this number. -/
theorem ofLiteral_literal (w : Window) (negative : Bool) (rank : Fin f.magnitudes) :
    ofLiteral f (literal w negative (f.shortest .even rank)) = finite negative rank := by
  have hproper : (literal w negative (f.shortest .even rank)).IsProper :=
    isProper_literal w negative (Decimal.exponent_trimmed _)
  rw [ofLiteral_eq_round hproper (isWideNegative_literal w negative _), negative_literal,
    value_decimal_literal, round, f.nearest_shortest, ofRank, dif_pos rank.isLt]

/-- What a reader of numbers must do for the writer to be undone: it reads back what is written for
a finite number, and does not take `null` for a number. -/
structure IsReader (w : Window) (number? : Json → Option (Number f)) : Prop where
  finite : ∀ x : Number f, x.isFinite → number? (x.toJson w) = some x
  null : number? .null = none

/-- **Reading to the nearest number undoes writing.** -/
theorem isReader_ofJson? (w : Window) : IsReader w (ofJson? f) where
  finite x hx := by
    cases x with
    | nan => cases hx
    | infinite negative => cases hx
    | finite negative rank => rw [toJson, ofJson?, ofLiteral_literal]; rfl
  null := rfl

/-- A finite number is read back, and what is written for another one is not read. -/
theorem IsReader.read_toJson {w : Window} {number? : Json → Option (Number f)}
    (h : IsReader w number?) (x : Number f) :
    number? (x.toJson w) = if x.isFinite then some x else none := by
  cases x with
  | nan => exact h.null
  | infinite negative => exact h.null
  | finite negative rank => exact h.finite _ rfl

theorem isWritable_toJson (w : Window) (x : Number f) : (x.toJson w).IsWritable := by
  cases x with
  | nan => exact Json.isWritable_null
  | infinite negative => exact Json.isWritable_null
  | finite negative rank =>
    exact Json.isWritable_number (isProper_literal w negative (Decimal.exponent_trimmed _))

/-! ## Running text -/

/-- **The text of a finite number names it**: it is a literal, and the number is the nearest one to
what the literal denotes. -/
theorem exists_literal_text (negative : Bool) (rank : Fin f.magnitudes) :
    ∃ l : Json.Literal, l.IsProper ∧ (finite negative rank).text = String.ofList l.text ∧
      round f l.negative l.decimal.value = finite negative rank := by
  let d := f.shortest .up rank
  refine ⟨⟨negative, d.positional.1, d.positional.2, none⟩, ⟨?_, ?_⟩, ?_, ?_⟩
  · exact d.isWhole_positional_fst (Decimal.exponent_trimmed _)
  · intro c hc
    exact d.isDigit_layout c (d.positional_append ▸ List.mem_append_right _ hc)
  · have htext : (finite negative rank).text
        = String.ofList (signText negative ++ Decimal.pointed d.positional) := rfl
    rw [htext, Json.Literal.text, Json.Literal.exponentText, List.append_nil, List.append_assoc,
      signText, Decimal.pointed]
  · rw [value_decimal_positional]
    show round f negative d.value = _
    rw [round, f.nearest_shortest, ofRank, dif_pos rank.isLt]

/-- A number with decimal places has as many digits behind the point as are asked for. -/
theorem length_fixedDigits (f : Format) (places rank : Nat) :
    (fixedDigits f places rank).2.length = places := by
  rw [fixedDigits, List.length_append, List.length_replicate, Decimal.length_positional_snd,
    Decimal.places]
  show (- -((min places f.unitExponent : Nat) : Int)).toNat + _ = _
  omega

end Number

end BlockVector

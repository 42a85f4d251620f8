/-!
# Number literals

A number of a JSON text, kept as it is written: its digits decide what it means to a reader, and a
reader of counts accepts less than a reader of coordinates does.

## Grammar

An optional minus sign; digits without a leading zero (`0` alone is one digit); optionally a point
and at least one digit; optionally `e` or `E`, an optional sign and at least one digit.

Every part is read from the front of the text and returns what follows it. The parts of a literal
are read greedily: whatever could still belong to a part does.
-/

namespace BlockVector.Json

/-- A number as it is written. -/
structure Literal where
  /-- The literal starts with a minus sign. -/
  negative : Bool
  /-- The digits before the point. -/
  whole : List Char
  /-- The digits after the point; none when there is no point. -/
  fraction : List Char
  /-- The power of ten behind `e`, if there is one. -/
  exponent : Option Int
  deriving DecidableEq, Repr

namespace Literal

/-- The natural number that decimal digits denote. -/
def value (digits : List Char) : Nat := Nat.ofDigitChars 10 digits 0

/-- The literal of a natural number. -/
def ofNat (n : Nat) : Literal := ⟨false, Nat.toDigits 10 n, [], none⟩

/-- The natural number that a literal of digits alone denotes. A sign, a point and an exponent are
refused even where the number is the same. -/
def natural? (l : Literal) : Option Nat :=
  if l.negative = false ∧ l.fraction = [] ∧ l.exponent = none then some (value l.whole) else none

theorem value_toDigits (n : Nat) : value (Nat.toDigits 10 n) = n :=
  Nat.ofDigitChars_ten_toDigits

@[simp] theorem natural?_ofNat (n : Nat) : (ofNat n).natural? = some n := by
  simp [natural?, ofNat, value_toDigits]

/-! ## Writing -/

/-- An exponent with its sign, which is written in any case. -/
def exponentText : Option Int → List Char
  | none => []
  | some e => 'e' :: (if e < 0 then '-' else '+') :: Nat.toDigits 10 e.natAbs

/-- The characters of a literal. -/
def text (l : Literal) : List Char :=
  (if l.negative then ['-'] else []) ++ l.whole
    ++ (if l.fraction = [] then [] else '.' :: l.fraction) ++ exponentText l.exponent

/-! ## Reading -/

/-- At least one digit. -/
def readDigits (s : List Char) : Option (List Char × List Char) :=
  if s.takeWhile Char.isDigit = [] then none
  else some (s.takeWhile Char.isDigit, s.dropWhile Char.isDigit)

/-- The digits before the point: a zero stands alone. -/
def readWhole : List Char → Option (List Char × List Char)
  | '0' :: s => some (['0'], s)
  | s => readDigits s

/-- The digits after the point, if there is a point. -/
def readFraction : List Char → Option (List Char × List Char)
  | '.' :: s => readDigits s
  | s => some ([], s)

/-- The power of ten behind `e`. -/
def readPower : List Char → Option (Int × List Char)
  | '-' :: s => (readDigits s).map fun r => (-(value r.1 : Int), r.2)
  | '+' :: s => (readDigits s).map fun r => ((value r.1 : Int), r.2)
  | s => (readDigits s).map fun r => ((value r.1 : Int), r.2)

/-- The exponent, if there is one. -/
def readExponent : List Char → Option (Option Int × List Char)
  | 'e' :: s => (readPower s).map fun r => (some r.1, r.2)
  | 'E' :: s => (readPower s).map fun r => (some r.1, r.2)
  | s => some (none, s)

/-- A minus sign, if there is one. -/
def readSign : List Char → Bool × List Char
  | '-' :: s => (true, s)
  | s => (false, s)

/-- Reads a literal from the front of a text; the second part is what follows it. -/
def read (s : List Char) : Option (Literal × List Char) :=
  (readWhole (readSign s).2).bind fun whole =>
    (readFraction whole.2).bind fun fraction =>
      (readExponent fraction.2).map fun exponent =>
        (⟨(readSign s).1, whole.1, fraction.1, exponent.1⟩, exponent.2)

/-! ## What follows is shorter -/

theorem length_readDigits {s digits rest : List Char} (h : readDigits s = some (digits, rest)) :
    rest.length < s.length := by
  unfold readDigits at h
  split at h
  · simp at h
  · next hne =>
    simp only [Option.some.injEq, Prod.mk.injEq] at h
    obtain ⟨-, rfl⟩ := h
    have hsplit := congrArg List.length (List.takeWhile_append_dropWhile (p := Char.isDigit) (l := s))
    have hpos := List.length_pos_iff.mpr hne
    simp only [List.length_append] at hsplit
    omega

theorem length_readWhole {s digits rest : List Char} (h : readWhole s = some (digits, rest)) :
    rest.length < s.length := by
  unfold readWhole at h
  split at h
  · simp only [Option.some.injEq, Prod.mk.injEq] at h
    obtain ⟨-, rfl⟩ := h
    simp
  · exact length_readDigits h

theorem length_readFraction {s digits rest : List Char} (h : readFraction s = some (digits, rest)) :
    rest.length ≤ s.length := by
  unfold readFraction at h
  split at h
  · have := length_readDigits h
    simp only [List.length_cons]
    omega
  · simp only [Option.some.injEq, Prod.mk.injEq] at h
    obtain ⟨-, rfl⟩ := h
    exact Nat.le_refl _

theorem length_readPower {s rest : List Char} {e : Int} (h : readPower s = some (e, rest)) :
    rest.length < s.length := by
  unfold readPower at h
  have hdrop {t : List Char} {f : List Char → Int}
      (h : (readDigits t).map (fun r => (f r.1, r.2)) = some (e, rest)) :
      rest.length < t.length := by
    simp only [Option.map_eq_some_iff, Prod.exists, Prod.mk.injEq] at h
    obtain ⟨digits, r, hr, -, rfl⟩ := h
    exact length_readDigits hr
  split at h
  · exact Nat.lt_succ_of_lt (hdrop (f := fun ds => -(value ds : Int)) h)
  · exact Nat.lt_succ_of_lt (hdrop (f := fun ds => (value ds : Int)) h)
  · exact hdrop (f := fun ds => (value ds : Int)) h

theorem length_readExponent {s rest : List Char} {e : Option Int}
    (h : readExponent s = some (e, rest)) : rest.length ≤ s.length := by
  unfold readExponent at h
  split at h
  · simp only [Option.map_eq_some_iff, Prod.exists, Prod.mk.injEq] at h
    obtain ⟨p, r, hr, -, rfl⟩ := h
    have := length_readPower hr
    simp only [List.length_cons]
    omega
  · simp only [Option.map_eq_some_iff, Prod.exists, Prod.mk.injEq] at h
    obtain ⟨p, r, hr, -, rfl⟩ := h
    have := length_readPower hr
    simp only [List.length_cons]
    omega
  · simp only [Option.some.injEq, Prod.mk.injEq] at h
    obtain ⟨-, rfl⟩ := h
    exact Nat.le_refl _

theorem length_readSign (s : List Char) : (readSign s).2.length ≤ s.length := by
  unfold readSign
  split <;> simp

/-- A literal has at least one character. -/
theorem length_read {s rest : List Char} {l : Literal} (h : read s = some (l, rest)) :
    rest.length < s.length := by
  unfold read at h
  simp only [Option.bind_eq_some_iff, Option.map_eq_some_iff, Prod.exists, Prod.mk.injEq] at h
  obtain ⟨whole, s₁, h₁, fraction, s₂, h₂, e, s₃, h₃, -, rfl⟩ := h
  have := length_readSign s
  have := length_readWhole h₁
  have := length_readFraction h₂
  have := length_readExponent h₃
  omega

end Literal

end BlockVector.Json

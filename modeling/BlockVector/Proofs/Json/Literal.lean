import BlockVector.Json.Literal

/-!
# Spellings of a number literal

A literal has more than one spelling: the `e` may be large or small, and the exponent with or
without a plus sign and with zeros in front. `Literal.Spells` is the grammar of all of them.

`Literal.read` takes just the spellings of the grammar from the front of a text (`spells_of_read`),
and it takes one as a whole where the text behind it cannot belong to it (`read_of_spells`). What
`Literal.text` writes is one of them (`spells_text`).

A count or a position in another text is written in digits alone. Its numeral is not the numeral of
another number (`repr_inj`), and has nothing but digits in it (`notMem_toList_repr`).
-/

namespace BlockVector.Json.Literal

/-! ## Grammar -/

/-- One digit or more. -/
def IsDigits (w : List Char) : Prop := w ≠ [] ∧ ∀ c ∈ w, c.isDigit

/-- Digits without a zero in front, unless the zero is all there is. -/
structure IsWhole (w : List Char) : Prop where
  isDigits : IsDigits w
  eq_zero_of_head? : w.head? = some '0' → w = ['0']

/-- The digits behind a point, if there is one. -/
inductive SpellsFraction : List Char → List Char → Prop
  | absent : SpellsFraction [] []
  | present {w : List Char} : IsDigits w → SpellsFraction w ('.' :: w)

/-- A power of ten, with a sign or without one. -/
inductive SpellsPower : Int → List Char → Prop
  | bare {w : List Char} : IsDigits w → SpellsPower (value w) w
  | plus {w : List Char} : IsDigits w → SpellsPower (value w) ('+' :: w)
  | minus {w : List Char} : IsDigits w → SpellsPower (-value w) ('-' :: w)

/-- The power of ten behind an `e`, if there is one. -/
inductive SpellsExponent : Option Int → List Char → Prop
  | absent : SpellsExponent none []
  | small {e : Int} {w : List Char} : SpellsPower e w → SpellsExponent (some e) ('e' :: w)
  | large {e : Int} {w : List Char} : SpellsPower e w → SpellsExponent (some e) ('E' :: w)

/-- The sign of a literal as it is written. -/
def sign (negative : Bool) : List Char := if negative then ['-'] else []

/-- The spellings of a literal: its sign and its parts, one after the other. -/
inductive Spells : Literal → List Char → Prop
  | mk {whole fraction point power : List Char} {exponent : Option Int} (negative : Bool) :
    IsWhole whole → SpellsFraction fraction point → SpellsExponent exponent power →
      Spells ⟨negative, whole, fraction, exponent⟩ (sign negative ++ (whole ++ (point ++ power)))

/-- The text does not go on with a digit. -/
def NoDigit (rest : List Char) : Prop := ∀ c ∈ rest.head?, c.isDigit = false

/-- The text does not go on with anything that a literal in front of it could take. -/
def IsEnd (rest : List Char) : Prop :=
  NoDigit rest ∧ ∀ c ∈ rest.head?, c ≠ '.' ∧ c ≠ 'e' ∧ c ≠ 'E'

/-! ## Digits -/

theorem IsDigits.head?_append {w : List Char} (hw : IsDigits w) (rest : List Char) :
    (w ++ rest).head? = w.head? := by
  obtain ⟨c, w, rfl⟩ := List.exists_cons_of_ne_nil hw.1
  rfl

theorem IsDigits.isDigit_head {w : List Char} (hw : IsDigits w) (rest : List Char) :
    ∀ c ∈ (w ++ rest).head?, c.isDigit := by
  intro c hc
  rw [hw.head?_append] at hc
  exact hw.2 c (List.mem_of_mem_head? hc)

/-- Digits are read as far as they go. -/
theorem readDigits_eq_some_iff {s w rest : List Char} :
    readDigits s = some (w, rest) ↔ s = w ++ rest ∧ IsDigits w ∧ NoDigit rest := by
  constructor
  · intro h
    unfold readDigits at h
    split at h
    · cases h
    · next hne =>
      cases h
      refine ⟨List.takeWhile_append_dropWhile.symm, ⟨hne, ?_⟩, fun c hc => ?_⟩
      · exact List.all_eq_true.mp List.all_takeWhile
      · have hnot := List.head?_dropWhile_not Char.isDigit s
        rw [hc] at hnot
        exact hnot
  · rintro ⟨rfl, ⟨hne, hw⟩, hrest⟩
    have htake : rest.takeWhile Char.isDigit = [] := by
      cases rest with
      | nil => rfl
      | cons c rest => simp [hrest c rfl]
    have hdrop : rest.dropWhile Char.isDigit = rest := by
      cases rest with
      | nil => rfl
      | cons c rest => simp [hrest c rfl]
    rw [readDigits, List.takeWhile_append_of_pos hw, List.dropWhile_append_of_pos hw, htake, hdrop,
      List.append_nil, if_neg hne]

theorem isDigits_toDigits (n : Nat) : IsDigits (Nat.toDigits 10 n) :=
  ⟨Nat.toDigits_ne_nil, fun _ hc => Nat.isDigit_of_mem_toDigits (by decide) (by decide) hc⟩

/-- The digits of a number have no zero in front. -/
theorem isWhole_toDigits (n : Nat) : IsWhole (Nat.toDigits 10 n) where
  isDigits := isDigits_toDigits n
  eq_zero_of_head? := by
    induction n using Nat.strongRecOn with
    | _ n ih =>
      rw [Nat.toDigits_eq_if (by decide)]
      split
      · next hlt =>
        have hdigit : ∀ m ∈ List.range 10, Nat.digitChar m = '0' → [Nat.digitChar m] = ['0'] := by
          decide
        intro hhead
        exact hdigit n (List.mem_range.mpr hlt) (Option.some.inj hhead)
      · next hge =>
        intro hhead
        rw [(isDigits_toDigits _).head?_append] at hhead
        -- A first digit zero would make the number without its last digit zero.
        have hzero := ih (n / 10) (by omega) hhead
        have hvalue := congrArg value hzero
        rw [value_toDigits] at hvalue
        have : n / 10 = 0 := hvalue
        omega

/-! ## What digits denote -/

theorem value_append (v w : List Char) :
    value (v ++ w) = Nat.pow 10 w.length * value v + value w := by
  rw [value, Nat.ofDigitChars_append, Nat.ofDigitChars_eq_ofDigitChars_zero]
  rfl

theorem value_replicate_zero (n : Nat) : value (List.replicate n '0') = 0 := by
  rw [value, Nat.ofDigitChars_replicate_zero, Nat.mul_zero]

/-- Digits denote less than the power of ten with a zero for each of them. -/
theorem value_lt_tenPow {w : List Char} (hw : ∀ c ∈ w, c.isDigit) :
    value w < Nat.pow 10 w.length := by
  induction w with
  | nil => decide
  | cons c w ih =>
    obtain ⟨hc, hw⟩ := List.forall_mem_cons.mp hw
    have hdigit : value [c] < 10 := by
      have hrange := Char.isDigit_iff_toNat.mp hc
      have hnine : '9'.toNat = 57 := rfl
      have hzero : '0'.toNat = 48 := rfl
      simp only [value, Nat.ofDigitChars_cons, Nat.ofDigitChars_nil]
      omega
    rw [← List.singleton_append, value_append, List.length_append, List.length_singleton,
      Nat.add_comm 1]
    have hrest := ih hw
    have hscaled : Nat.pow 10 w.length * value [c] ≤ Nat.pow 10 w.length * 9 :=
      Nat.mul_le_mul_left _ (by omega)
    have hpower : Nat.pow 10 (w.length + 1) = Nat.pow 10 w.length * 10 := rfl
    omega

/-! ## The parts of a literal -/

/-- Digits that do not begin with a zero are read like any others. -/
theorem readWhole_of_ne_zero {s : List Char} (h : s.head? ≠ some '0') :
    readWhole s = readDigits s := by
  unfold readWhole
  split
  · next t => exact absurd rfl h
  · rfl

theorem isWhole_of_readWhole {s w rest : List Char} (h : readWhole s = some (w, rest)) :
    s = w ++ rest ∧ IsWhole w := by
  by_cases hzero : s.head? = some '0'
  · obtain ⟨t, rfl⟩ := List.head?_eq_some_iff.mp hzero
    cases h
    exact ⟨rfl, ⟨⟨List.cons_ne_nil _ _, List.forall_mem_singleton.mpr rfl⟩, fun _ => rfl⟩⟩
  · rw [readWhole_of_ne_zero hzero, readDigits_eq_some_iff] at h
    obtain ⟨rfl, hw, -⟩ := h
    refine ⟨rfl, hw, fun hhead => absurd ?_ hzero⟩
    rw [hw.head?_append, hhead]

theorem readWhole_of_isWhole {w rest : List Char} (hw : IsWhole w) (hrest : NoDigit rest) :
    readWhole (w ++ rest) = some (w, rest) := by
  by_cases hzero : w.head? = some '0'
  · rw [hw.eq_zero_of_head? hzero]
    rfl
  · rw [readWhole_of_ne_zero (by rwa [hw.isDigits.head?_append]), readDigits_eq_some_iff]
    exact ⟨rfl, hw.isDigits, hrest⟩

/-- A text that does not begin with a point has no fraction in front. -/
theorem readFraction_of_ne_point {s : List Char} (h : s.head? ≠ some '.') :
    readFraction s = some ([], s) := by
  unfold readFraction
  split
  · next t => exact absurd rfl h
  · rfl

theorem spellsFraction_of_readFraction {s fraction rest : List Char}
    (h : readFraction s = some (fraction, rest)) :
    ∃ point, s = point ++ rest ∧ SpellsFraction fraction point := by
  by_cases hpoint : s.head? = some '.'
  · obtain ⟨t, rfl⟩ := List.head?_eq_some_iff.mp hpoint
    obtain ⟨rfl, hw, -⟩ := readDigits_eq_some_iff.mp h
    exact ⟨'.' :: fraction, rfl, .present hw⟩
  · rw [readFraction_of_ne_point hpoint] at h
    cases h
    exact ⟨[], rfl, .absent⟩

theorem readFraction_of_spells {fraction point rest : List Char}
    (h : SpellsFraction fraction point) (hrest : NoDigit rest) (hpoint : rest.head? ≠ some '.') :
    readFraction (point ++ rest) = some (fraction, rest) := by
  cases h with
  | absent => exact readFraction_of_ne_point hpoint
  | present hw => exact readDigits_eq_some_iff.mpr ⟨rfl, hw, hrest⟩

/-- A text that does not begin with a sign has a power without one in front. -/
theorem readPower_of_ne_sign {s : List Char} (hminus : s.head? ≠ some '-')
    (hplus : s.head? ≠ some '+') :
    readPower s = (readDigits s).map fun r => ((value r.1 : Int), r.2) := by
  unfold readPower
  split
  · next t => exact absurd rfl hminus
  · next t => exact absurd rfl hplus
  · rfl

theorem spellsPower_of_readPower {s rest : List Char} {e : Int}
    (h : readPower s = some (e, rest)) : ∃ w, s = w ++ rest ∧ SpellsPower e w := by
  have hdigits {t : List Char} {f : List Char → Int}
      (h : (readDigits t).map (fun r => (f r.1, r.2)) = some (e, rest)) :
      ∃ w, t = w ++ rest ∧ IsDigits w ∧ e = f w := by
    obtain ⟨⟨w, r⟩, hread, heq⟩ := Option.map_eq_some_iff.mp h
    cases heq
    obtain ⟨rfl, hw, -⟩ := readDigits_eq_some_iff.mp hread
    exact ⟨w, rfl, hw, rfl⟩
  unfold readPower at h
  split at h
  · next t =>
    obtain ⟨w, rfl, hw, rfl⟩ := hdigits (f := fun w => -(value w : Int)) h
    exact ⟨'-' :: w, rfl, .minus hw⟩
  · next t =>
    obtain ⟨w, rfl, hw, rfl⟩ := hdigits (f := fun w => (value w : Int)) h
    exact ⟨'+' :: w, rfl, .plus hw⟩
  · obtain ⟨w, rfl, hw, rfl⟩ := hdigits (f := fun w => (value w : Int)) h
    exact ⟨w, rfl, .bare hw⟩

theorem readPower_of_spells {w rest : List Char} {e : Int} (h : SpellsPower e w)
    (hrest : NoDigit rest) : readPower (w ++ rest) = some (e, rest) := by
  have hread {w : List Char} (hw : IsDigits w) : readDigits (w ++ rest) = some (w, rest) :=
    readDigits_eq_some_iff.mpr ⟨rfl, hw, hrest⟩
  cases h with
  | bare hw =>
    have hminus : (w ++ rest).head? ≠ some '-' := fun hc =>
      absurd (hw.isDigit_head rest _ hc) (by decide)
    have hplus : (w ++ rest).head? ≠ some '+' := fun hc =>
      absurd (hw.isDigit_head rest _ hc) (by decide)
    rw [readPower_of_ne_sign hminus hplus, hread hw, Option.map_some]
  | plus hw => rw [List.cons_append, readPower, hread hw, Option.map_some]
  | minus hw => rw [List.cons_append, readPower, hread hw, Option.map_some]

/-- A text that does not begin with an `e` has no exponent in front. -/
theorem readExponent_of_ne_mark {s : List Char} (hsmall : s.head? ≠ some 'e')
    (hlarge : s.head? ≠ some 'E') : readExponent s = some (none, s) := by
  unfold readExponent
  split
  · next t => exact absurd rfl hsmall
  · next t => exact absurd rfl hlarge
  · rfl

theorem spellsExponent_of_readExponent {s rest : List Char} {e : Option Int}
    (h : readExponent s = some (e, rest)) : ∃ w, s = w ++ rest ∧ SpellsExponent e w := by
  unfold readExponent at h
  split at h
  · next t =>
    obtain ⟨⟨e, r⟩, hread, heq⟩ := Option.map_eq_some_iff.mp h
    cases heq
    obtain ⟨w, rfl, hw⟩ := spellsPower_of_readPower hread
    exact ⟨'e' :: w, rfl, .small hw⟩
  · next t =>
    obtain ⟨⟨e, r⟩, hread, heq⟩ := Option.map_eq_some_iff.mp h
    cases heq
    obtain ⟨w, rfl, hw⟩ := spellsPower_of_readPower hread
    exact ⟨'E' :: w, rfl, .large hw⟩
  · cases h
    exact ⟨[], rfl, .absent⟩

theorem readExponent_of_spells {w rest : List Char} {e : Option Int} (h : SpellsExponent e w)
    (hrest : IsEnd rest) : readExponent (w ++ rest) = some (e, rest) := by
  cases h with
  | absent =>
    exact readExponent_of_ne_mark (fun hc => (hrest.2 _ hc).2.1 rfl)
      (fun hc => (hrest.2 _ hc).2.2 rfl)
  | small hw => rw [List.cons_append, readExponent, readPower_of_spells hw hrest.1, Option.map_some]
  | large hw => rw [List.cons_append, readExponent, readPower_of_spells hw hrest.1, Option.map_some]

/-! ## Whole literals -/

theorem sign_append_readSign (s : List Char) : sign (readSign s).1 ++ (readSign s).2 = s := by
  unfold readSign
  split <;> rfl

/-- **What is read is a spelling of the grammar**, and the text behind it is left. -/
theorem spells_of_read {s rest : List Char} {l : Literal} (h : read s = some (l, rest)) :
    ∃ w, s = w ++ rest ∧ l.Spells w := by
  simp only [read, Option.bind_eq_some_iff, Option.map_eq_some_iff, Prod.exists] at h
  obtain ⟨whole, s₁, hwhole, fraction, s₂, hfraction, exponent, s₃, hexponent, heq⟩ := h
  cases heq
  obtain ⟨hs₁, hw⟩ := isWhole_of_readWhole hwhole
  obtain ⟨point, rfl, hpoint⟩ := spellsFraction_of_readFraction hfraction
  obtain ⟨power, rfl, hpower⟩ := spellsExponent_of_readExponent hexponent
  refine ⟨_, ?_, .mk (readSign s).1 hw hpoint hpower⟩
  rw [List.append_assoc, List.append_assoc, List.append_assoc, ← hs₁, sign_append_readSign]

theorem readSign_of_digit {s : List Char} (negative : Bool)
    (hs : ∀ c ∈ s.head?, c.isDigit) : readSign (sign negative ++ s) = (negative, s) := by
  cases negative with
  | true => rfl
  | false =>
    show readSign s = (false, s)
    unfold readSign
    split
    · next t => exact absurd (hs '-' rfl) (by decide)
    · rfl

/-- Where a literal may end, its fraction may end too. -/
theorem SpellsExponent.head_ne {e : Option Int} {w rest : List Char} (h : SpellsExponent e w)
    (hrest : IsEnd rest) : NoDigit (w ++ rest) ∧ (w ++ rest).head? ≠ some '.' := by
  cases h with
  | absent => exact ⟨hrest.1, fun hc => (hrest.2 _ hc).1 rfl⟩
  | small _ => exact ⟨by simp [NoDigit], by simp⟩
  | large _ => exact ⟨by simp [NoDigit], by simp⟩

/-- Where a fraction may end, the digits before it may end too. -/
theorem SpellsFraction.noDigit {fraction point rest : List Char}
    (h : SpellsFraction fraction point) (hrest : NoDigit rest) : NoDigit (point ++ rest) := by
  cases h with
  | absent => exact hrest
  | present _ => simp [NoDigit]

/-- **A spelling of the grammar is read** where the text behind it cannot belong to it. -/
theorem read_of_spells {l : Literal} {w rest : List Char} (h : l.Spells w) (hrest : IsEnd rest) :
    read (w ++ rest) = some (l, rest) := by
  obtain ⟨negative, hwhole, hpoint, hpower⟩ := h
  obtain ⟨hnoDigit, hnoPoint⟩ := hpower.head_ne hrest
  rw [List.append_assoc, List.append_assoc, List.append_assoc]
  simp only [read, readSign_of_digit negative (hwhole.isDigits.isDigit_head _),
    readWhole_of_isWhole hwhole (hpoint.noDigit hnoDigit),
    readFraction_of_spells hpoint hnoDigit hnoPoint, readExponent_of_spells hpower hrest,
    Option.bind_some, Option.map_some]

/-! ## What is written -/

/-- A literal with a spelling: its parts are digits, with none too many in front. -/
def IsProper (l : Literal) : Prop := IsWhole l.whole ∧ ∀ c ∈ l.fraction, c.isDigit

theorem isProper_ofNat (n : Nat) : (ofNat n).IsProper :=
  ⟨isWhole_toDigits n, fun _ hc => absurd hc List.not_mem_nil⟩

theorem spellsExponent_exponentText (e : Option Int) : SpellsExponent e (exponentText e) := by
  cases e with
  | none => exact .absent
  | some e =>
    refine .small ?_
    have hdigits := isDigits_toDigits e.natAbs
    have hvalue := value_toDigits e.natAbs
    by_cases hneg : e < 0
    · have he : e = -(value (Nat.toDigits 10 e.natAbs) : Int) := by omega
      rw [if_pos hneg]
      conv => lhs; rw [he]
      exact .minus hdigits
    · have he : e = (value (Nat.toDigits 10 e.natAbs) : Int) := by omega
      rw [if_neg hneg]
      conv => lhs; rw [he]
      exact .plus hdigits

/-- **What is written is a spelling of the grammar.** -/
theorem spells_text {l : Literal} (hl : l.IsProper) : l.Spells l.text := by
  obtain ⟨negative, whole, fraction, exponent⟩ := l
  have hpoint : SpellsFraction fraction (if fraction = [] then [] else '.' :: fraction) := by
    split
    · next hnil =>
      subst hnil
      exact .absent
    · next hne => exact .present ⟨hne, hl.2⟩
  rw [text, List.append_assoc, List.append_assoc]
  exact .mk negative hl.1 hpoint (spellsExponent_exponentText exponent)

/-- The spellings of the literals of digits alone. -/
theorem spells_natural_iff {w : List Char} {l : Literal} {n : Nat} :
    l.Spells w ∧ l.natural? = some n ↔
      IsWhole w ∧ value w = n ∧ l = ⟨false, w, [], none⟩ := by
  constructor
  · rintro ⟨⟨negative, hwhole, hpoint, hpower⟩, hn⟩
    simp only [natural?, Option.ite_none_right_eq_some, Option.some.injEq] at hn
    obtain ⟨⟨rfl, rfl, rfl⟩, rfl⟩ := hn
    cases hpoint with
    | absent =>
      cases hpower with
      | absent => simpa [sign] using hwhole
    | present hw => exact absurd rfl hw.1
  · rintro ⟨hw, rfl, rfl⟩
    have h := Spells.mk false hw .absent .absent
    rw [List.append_nil, List.append_nil] at h
    exact ⟨h, rfl⟩

/-! ## Numerals -/

/-- **Two numbers with the same numeral are the same.** -/
theorem repr_inj {m n : Nat} : Nat.repr m = Nat.repr n ↔ m = n := by
  refine ⟨fun h => ?_, congrArg Nat.repr⟩
  have hdigits : Nat.toDigits 10 m = Nat.toDigits 10 n := by
    rw [← Nat.toList_repr, h, Nat.toList_repr]
  rw [← value_toDigits m, hdigits, value_toDigits]

theorem notMem_toList_repr {c : Char} (hc : c.isDigit = false) (n : Nat) :
    c ∉ (Nat.repr n).toList := by
  intro hmem
  rw [Nat.toList_repr] at hmem
  have hdigit := (isDigits_toDigits n).2 c hmem
  rw [hc] at hdigit
  cases hdigit

end BlockVector.Json.Literal

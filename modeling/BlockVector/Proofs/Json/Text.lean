import BlockVector.Json.Token
import BlockVector.Proofs.Json.Literal

/-!
# Spellings of strings

A character stands between quotes as itself, as an escape of one letter, as an escape of one unit,
or as escapes of two units that pair up. `SpellsChar` is the grammar of these spellings, and
`IsString` that of a whole string with its quotes.

What the letters of escapes and the hexadecimal digits stand for is said by
`Piece.escape?_eq_some_iff` and `Piece.hexValue?_eq_some_iff`.

Reading goes in two steps, pieces first (`Piece.read_eq_some_iff`) and characters from the pieces
(`Piece.exists_text?_iff`). Together they accept just the spellings of the grammar.
-/

namespace BlockVector.Json

/-- The spellings of a row: those of its members, one after the other. -/
inductive Row {α : Type} (spells : α → List Char → Prop) : List α → List Char → Prop
  | nil : Row spells [] []
  | cons {x : α} {xs : List α} {w s : List Char} :
    spells x w → Row spells xs s → Row spells (x :: xs) (w ++ s)

/-- The spellings of a character between quotes. -/
inductive SpellsChar : Char → List Char → Prop
  | itself {c : Char} : ' ' ≤ c → c ≠ '"' → c ≠ '\\' → SpellsChar c [c]
  | letter {e c : Char} : Piece.escape? e = some c → SpellsChar c ['\\', e]
  | unit {a b c d : Char} {u : Nat} : Piece.unit? a b c d = some u →
    Piece.isHigh u = false → Piece.isLow u = false →
      SpellsChar (Char.ofNat u) ['\\', 'u', a, b, c, d]
  | units {a b c d a' b' c' d' : Char} {u v : Nat} : Piece.unit? a b c d = some u →
    Piece.isHigh u → Piece.unit? a' b' c' d' = some v → Piece.isLow v →
      SpellsChar (Char.ofNat (0x10000 + (u - 0xD800) * 0x400 + (v - 0xDC00)))
        ['\\', 'u', a, b, c, d, '\\', 'u', a', b', c', d']

/-- The spellings of a text, with its quotes. -/
def IsString (text : String) (w : List Char) : Prop :=
  ∃ body, Row SpellsChar text.toList body ∧ w = '"' :: (body ++ ['"'])

namespace Piece

/-! ## Escapes and digits -/

/-- The letters that escape a character, with the characters. -/
def escapes : List (Char × Char) :=
  [('"', '"'), ('\\', '\\'), ('/', '/'), ('b', '\x08'), ('f', '\x0c'), ('n', '\n'), ('r', '\r'),
    ('t', '\t')]

/-- Eight letters are escapes, and no others. -/
theorem escape?_eq_some_iff {e c : Char} : escape? e = some c ↔ (e, c) ∈ escapes := by
  constructor
  · intro h
    unfold escape? at h
    split at h <;> cases h <;> decide
  · intro h
    simp only [escapes, List.mem_cons, Prod.mk.injEq, List.not_mem_nil, or_false] at h
    rcases h with ⟨rfl, rfl⟩ | ⟨rfl, rfl⟩ | ⟨rfl, rfl⟩ | ⟨rfl, rfl⟩ | ⟨rfl, rfl⟩ | ⟨rfl, rfl⟩ |
      ⟨rfl, rfl⟩ | ⟨rfl, rfl⟩ <;> rfl

theorem escape?_ne_u {e c : Char} (h : escape? e = some c) : e ≠ 'u' := by
  rintro rfl
  cases h

/-- Among characters with codes one after the other a character is found by its code. -/
theorem eq_of_run {first count : Nat} {run : Nat → Char}
    (hrun : ∀ m ∈ List.range count, Char.ofNat (first + m) = run m) {c : Char}
    (hfirst : first ≤ c.toNat) (hlast : c.toNat < first + count) : c = run (c.toNat - first) := by
  have hmem : c.toNat - first ∈ List.range count := List.mem_range.mpr (by omega)
  rw [← hrun _ hmem, Nat.add_sub_cancel' hfirst, Char.ofNat_toNat]

/-- **A hexadecimal digit is written small or large, and has a value below sixteen.** -/
theorem hexValue?_eq_some_iff {c : Char} {n : Nat} :
    hexValue? c = some n ↔ n < 16 ∧ (c = hexDigit n ∨ c = (hexDigit n).toUpper) := by
  constructor
  · intro h
    have hdigit : ∀ m ∈ List.range 10, Char.ofNat (48 + m) = hexDigit m := by decide
    have hsmall : ∀ m ∈ List.range 6, Char.ofNat (97 + m) = hexDigit (m + 10) := by decide
    have hlarge : ∀ m ∈ List.range 6, Char.ofNat (65 + m) = (hexDigit (m + 10)).toUpper := by
      decide
    unfold hexValue? at h
    split at h
    · next hc =>
      cases h
      have hlast : c.toNat < 48 + 10 := Nat.lt_succ_of_le hc.2
      refine ⟨?_, Or.inl (eq_of_run hdigit hc.1 hlast)⟩
      show c.toNat - 48 < 16
      omega
    · split at h
      · next hc =>
        cases h
        have hlast : c.toNat < 97 + 6 := Nat.lt_succ_of_le hc.2
        refine ⟨?_, Or.inl (eq_of_run hsmall hc.1 hlast)⟩
        show c.toNat - 97 + 10 < 16
        omega
      · split at h
        · next hc =>
          cases h
          have hlast : c.toNat < 65 + 6 := Nat.lt_succ_of_le hc.2
          refine ⟨?_, Or.inr (eq_of_run hlarge hc.1 hlast)⟩
          show c.toNat - 65 + 10 < 16
          omega
        · cases h
  · rintro ⟨hn, hc⟩
    have hall : ∀ m ∈ List.range 16,
        hexValue? (hexDigit m) = some m ∧ hexValue? (hexDigit m).toUpper = some m := by decide
    rcases hc with rfl | rfl
    · exact (hall n (List.mem_range.mpr hn)).1
    · exact (hall n (List.mem_range.mpr hn)).2

theorem hexValue?_hexDigit {n : Nat} (hn : n < 16) : hexValue? (hexDigit n) = some n :=
  hexValue?_eq_some_iff.mpr ⟨hn, Or.inl rfl⟩

/-- Four hexadecimal digits denote the number that they are the digits of. -/
theorem unit?_eq_some_iff {a b c d : Char} {u : Nat} :
    unit? a b c d = some u ↔ ∃ w x y z, hexValue? a = some w ∧ hexValue? b = some x ∧
      hexValue? c = some y ∧ hexValue? d = some z ∧ u = ((w * 16 + x) * 16 + y) * 16 + z := by
  simp only [unit?, Option.bind_eq_bind, Option.bind_eq_some_iff, Option.pure_def,
    Option.some.injEq]
  constructor
  · rintro ⟨w, hw, x, hx, y, hy, z, hz, rfl⟩
    exact ⟨w, x, y, z, hw, hx, hy, hz, rfl⟩
  · rintro ⟨w, x, y, z, hw, hx, hy, hz, rfl⟩
    exact ⟨w, hw, x, hx, y, hy, z, hz, rfl⟩

/-- The spellings of a piece. -/
inductive Spells : Piece → List Char → Prop
  | itself {c : Char} : ' ' ≤ c → c ≠ '"' → c ≠ '\\' → Spells (char c) [c]
  | letter {e c : Char} : escape? e = some c → Spells (char c) ['\\', e]
  | unit {a b c d : Char} {u : Nat} : unit? a b c d = some u →
    Spells (unit u) ['\\', 'u', a, b, c, d]

/-! ## Pieces -/

/-- The spelling of a piece is read as the piece, whatever the rest of the string is. -/
theorem read_append {p : Piece} {w s : List Char} (h : p.Spells w) :
    read (w ++ s) = (read s).map fun r => (p :: r.1, r.2) := by
  cases h with
  | @itself c hspace hquote hslash =>
    rw [List.singleton_append, read]
    · rw [if_neg (not_or.mpr ⟨Char.not_lt.mpr hspace, hslash⟩)]
    · exact hquote
    · rintro a b c d t rfl -
      exact hslash rfl
    · rintro e t rfl -
      exact hslash rfl
  | letter he =>
    rw [List.cons_append, List.cons_append, List.nil_append, read, he, Option.bind_some]
    rintro a b c d t rfl -
    exact escape?_ne_u he rfl
  | unit hu =>
    simp only [List.cons_append, List.nil_append, read, hu, Option.bind_some]

/-- **Reading takes just the spellings of pieces up to a closing quote.** -/
theorem read_eq_some_iff {ps : List Piece} {s rest : List Char} :
    read s = some (ps, rest) ↔ ∃ body, s = body ++ '"' :: rest ∧ Row Spells ps body := by
  constructor
  · intro h
    fun_induction read s generalizing ps with
    | case1 => cases h
    | case2 t =>
      cases h
      exact ⟨[], rfl, .nil⟩
    | case3 a b c d t ih =>
      simp only [Option.bind_eq_some_iff, Option.map_eq_some_iff, Prod.exists] at h
      obtain ⟨u, hu, qs, r, hread, heq⟩ := h
      cases heq
      obtain ⟨body, rfl, hbody⟩ := ih hread
      exact ⟨_, rfl, .cons (.unit hu) hbody⟩
    | case4 e t _ ih =>
      simp only [Option.bind_eq_some_iff, Option.map_eq_some_iff, Prod.exists] at h
      obtain ⟨c, hc, qs, r, hread, heq⟩ := h
      cases heq
      obtain ⟨body, rfl, hbody⟩ := ih hread
      exact ⟨_, rfl, .cons (.letter hc) hbody⟩
    | case5 => cases h
    | case6 c t hquote _ _ hplain ih =>
      obtain ⟨hspace, hslash⟩ := not_or.mp hplain
      simp only [Option.map_eq_some_iff, Prod.exists] at h
      obtain ⟨qs, r, hread, heq⟩ := h
      cases heq
      obtain ⟨body, rfl, hbody⟩ := ih hread
      exact ⟨_, rfl, .cons (.itself (Char.not_lt.mp hspace) hquote hslash) hbody⟩
  · rintro ⟨body, rfl, hbody⟩
    induction hbody with
    | nil => rfl
    | cons hp _ ih => rw [List.append_assoc, read_append hp, ih, Option.map_some]

/-! ## Characters -/

theorem characters?_char (c : Char) (ps : List Piece) :
    characters? (char c :: ps) = (characters? ps).map (c :: ·) := rfl

/-- A unit that is no half of a pair stands for a character, whatever follows it. -/
theorem characters?_unit {u : Nat} (hhigh : isHigh u = false) (hlow : isLow u = false)
    (ps : List Piece) : characters? (unit u :: ps) = (characters? ps).map (Char.ofNat u :: ·) := by
  cases ps with
  | nil => simp [characters?, hhigh, hlow]
  | cons p ps => cases p <;> simp [characters?, hhigh, hlow]

theorem characters?_units {u v : Nat} (hhigh : isHigh u) (hlow : isLow v) (ps : List Piece) :
    characters? (unit u :: unit v :: ps) = (characters? ps).map
      (Char.ofNat (0x10000 + (u - 0xD800) * 0x400 + (v - 0xDC00)) :: ·) := by
  simp [characters?, hhigh, hlow]

theorem rowSpellsChar_of_characters? {ps : List Piece} {cs body : List Char}
    (h : characters? ps = some cs) (hbody : Row Spells ps body) : Row SpellsChar cs body := by
  fun_induction characters? ps generalizing cs body with
  | case1 =>
    cases h
    cases hbody
    exact .nil
  | case2 c ps ih =>
    obtain ⟨cs, hcs, rfl⟩ := Option.map_eq_some_iff.mp h
    obtain _ | ⟨hp, hrest⟩ := hbody
    cases hp with
    | itself hspace hquote hslash => exact .cons (.itself hspace hquote hslash) (ih hcs hrest)
    | letter he => exact .cons (.letter he) (ih hcs hrest)
  | case3 u v ps hpair ih =>
    obtain ⟨cs, hcs, rfl⟩ := Option.map_eq_some_iff.mp h
    obtain ⟨hhigh, hlow⟩ := Bool.and_eq_true_iff.mp hpair
    obtain _ | ⟨⟨⟩ | ⟨⟩ | hu, _ | ⟨⟨⟩ | ⟨⟩ | hv, hrest⟩⟩ := hbody
    have h := Row.cons (.units hu hhigh hv hlow) (ih hcs hrest)
    exact h
  | case4 => cases h
  | case5 u v ps _ hsingle ih =>
    obtain ⟨cs, hcs, rfl⟩ := Option.map_eq_some_iff.mp h
    obtain ⟨hhigh, hlow⟩ := Bool.or_eq_false_iff.mp (Bool.not_eq_true _ ▸ hsingle)
    obtain _ | ⟨⟨⟩ | ⟨⟩ | hu, hrest⟩ := hbody
    exact .cons (.unit hu hhigh hlow) (ih hcs hrest)
  | case6 => cases h
  | case7 u ps _ hsingle ih =>
    obtain ⟨cs, hcs, rfl⟩ := Option.map_eq_some_iff.mp h
    obtain ⟨hhigh, hlow⟩ := Bool.or_eq_false_iff.mp (Bool.not_eq_true _ ▸ hsingle)
    obtain _ | ⟨⟨⟩ | ⟨⟩ | hu, hrest⟩ := hbody
    exact .cons (.unit hu hhigh hlow) (ih hcs hrest)

theorem exists_characters?_of_row {cs body : List Char} (h : Row SpellsChar cs body) :
    ∃ ps, Row Spells ps body ∧ characters? ps = some cs := by
  induction h with
  | nil => exact ⟨[], .nil, rfl⟩
  | cons hc _ ih =>
    obtain ⟨ps, hps, hcs⟩ := ih
    cases hc with
    | itself hspace hquote hslash =>
      exact ⟨_, .cons (.itself hspace hquote hslash) hps, by rw [characters?_char, hcs]; rfl⟩
    | letter he => exact ⟨_, .cons (.letter he) hps, by rw [characters?_char, hcs]; rfl⟩
    | unit hu hhigh hlow =>
      exact ⟨_, .cons (.unit hu) hps, by rw [characters?_unit hhigh hlow, hcs]; rfl⟩
    | units hu hhigh hv hlow =>
      have hunits := Row.cons (.unit hu) (.cons (.unit hv) hps)
      exact ⟨_, hunits, by rw [characters?_units hhigh hlow, hcs]; rfl⟩

/-- **The pieces that denote a text are spelled as its characters are.** -/
theorem exists_text?_iff {text : String} {body : List Char} :
    (∃ ps, Row Spells ps body ∧ text? ps = some text) ↔ Row SpellsChar text.toList body := by
  constructor
  · rintro ⟨ps, hps, htext⟩
    obtain ⟨cs, hcs, rfl⟩ := Option.map_eq_some_iff.mp htext
    rw [String.toList_ofList]
    exact rowSpellsChar_of_characters? hcs hps
  · intro h
    obtain ⟨ps, hps, hcs⟩ := exists_characters?_of_row h
    exact ⟨ps, hps, by rw [text?, hcs, Option.map_some, String.ofList_toList]⟩

/-! ## What is written -/

/-- Two hexadecimal digits write any number of a control character. -/
theorem unit?_hexDigit {n : Nat} (hn : n < 32) :
    unit? '0' '0' (hexDigit (n / 16)) (hexDigit (n % 16)) = some n := by
  rw [unit?_eq_some_iff]
  exact ⟨0, 0, n / 16, n % 16, rfl, rfl, hexValue?_hexDigit (by omega),
    hexValue?_hexDigit (Nat.mod_lt _ (by decide)), by omega⟩

theorem spellsChar_written (c : Char) : SpellsChar c (written c) := by
  by_cases hquote : c = '"'
  · subst hquote
    exact .letter rfl
  by_cases hslash : c = '\\'
  · subst hslash
    exact .letter rfl
  by_cases hline : c = '\n'
  · subst hline
    exact .letter rfl
  by_cases hreturn : c = '\r'
  · subst hreturn
    exact .letter rfl
  by_cases htab : c = '\t'
  · subst htab
    exact .letter rfl
  rw [written, if_neg hquote, if_neg hslash, if_neg hline, if_neg hreturn, if_neg htab]
  split
  · next hcontrol =>
    have hlt : c.toNat < 32 := Char.lt_def.mp hcontrol
    have hhigh : isHigh c.toNat = false := by simp [isHigh]; omega
    have hlow : isLow c.toNat = false := by simp [isLow]; omega
    have h := SpellsChar.unit (unit?_hexDigit hlt) hhigh hlow
    rwa [Char.ofNat_toNat] at h
  · next hcontrol => exact .itself (Char.not_lt.mp hcontrol) hquote hslash

/-- **What is written is a spelling of the text.** -/
theorem row_written (cs : List Char) : Row SpellsChar cs (cs.flatMap written) := by
  induction cs with
  | nil => exact .nil
  | cons c cs ih => exact .cons (spellsChar_written c) ih

end Piece

end BlockVector.Json

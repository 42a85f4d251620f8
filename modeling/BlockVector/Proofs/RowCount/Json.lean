import BlockVector.RowCount
import BlockVector.Proofs.Json.Value

/-!
# The JSON texts of a row count

`RowCount.Spells` is the grammar of the texts that mean a row count: blanks may stand around every
word, a string may be written with escapes, and a fixed row count is written in digits alone.

The reader accepts these texts and no others. Three values stand for row counts
(`ofJson?_eq_some_iff`), and a text is read as one of them just where it spells its tokens
(`Json.ofText?_eq_some_iff`). So a second key, a sign or a fraction, or anything behind the value is
refused: such a text spells the tokens of another value, or those of none.
-/

namespace BlockVector

namespace Json

/-- A natural number in digits alone, without a zero in front. -/
def IsNatural (n : Nat) (w : List Char) : Prop := Literal.IsWhole w ∧ Literal.value w = n

/-- One word of a text can be looked at by itself. -/
theorem spaced_word_iff {before after : List (List Char → Prop)} {word : List Char → Prop}
    {s : List Char} :
    Spaced (before ++ word :: after) s ↔ ∃ w, word w ∧ Spaced (before ++ (· = w) :: after) s := by
  induction before generalizing s with
  | nil =>
    constructor
    · rintro (_ | ⟨hblanks, hw, hs⟩)
      exact ⟨_, hw, .cons hblanks rfl hs⟩
    · rintro ⟨w, hw, _ | ⟨hblanks, rfl, hs⟩⟩
      exact .cons hblanks hw hs
  | cons first before ih =>
    constructor
    · rintro (_ | ⟨hblanks, hfirst, hs⟩)
      obtain ⟨w, hw, hs⟩ := ih.mp hs
      exact ⟨w, hw, .cons hblanks hfirst hs⟩
    · rintro ⟨w, hw, _ | ⟨hblanks, hfirst, hs⟩⟩
      exact .cons hblanks hfirst (ih.mpr ⟨w, hw, hs⟩)

/-- A literal denotes a count if it is written in digits alone and fits. -/
theorem Literal.count?_eq_some_iff {l : Literal} {n : Nat} :
    l.count? = some n ↔ l.natural? = some n ∧ n ≤ maxCount := by
  simp [Literal.count?, Option.filter_eq_some_iff]

theorem Literal.count?_ofNat {n : Nat} (hn : n ≤ maxCount) : (ofNat n).count? = some n :=
  count?_eq_some_iff.mpr ⟨natural?_ofNat n, hn⟩

end Json

namespace RowCount

open Json

/-- The JSON texts that mean a row count. -/
inductive Spells : RowCount → List Char → Prop
  | word {s : List Char} : Spaced [IsString "Dynamic"] s → Spells dynamic s
  | key {s : List Char} : Spaced [Token.openBrace.Spells, IsString "Dynamic", Token.colon.Spells,
    Token.null.Spells, Token.closeBrace.Spells] s → Spells dynamic s
  | digits {n : Nat} {s : List Char} : n ≤ maxCount →
    Spaced [Token.openBrace.Spells, IsString "Fixed", Token.colon.Spells, IsNatural n,
      Token.closeBrace.Spells] s → Spells (fixed n) s

/-- Three values stand for row counts. -/
theorem ofJson?_eq_some_iff {v : Json} {c : RowCount} :
    ofJson? v = some c ↔
      v = .string (some "Dynamic") ∧ c = dynamic ∨
      v = .object [(some "Dynamic", .null)] ∧ c = dynamic ∨
      ∃ l n, v = .object [(some "Fixed", .number l)] ∧ l.count? = some n ∧ c = fixed n := by
  constructor
  · intro h
    unfold ofJson? at h
    split at h
    · next s =>
      simp only [Option.ite_none_right_eq_some, Option.some.injEq] at h
      obtain ⟨rfl, rfl⟩ := h
      exact .inl ⟨rfl, rfl⟩
    · next key =>
      simp only [Option.ite_none_right_eq_some, Option.some.injEq] at h
      obtain ⟨rfl, rfl⟩ := h
      exact .inr (.inl ⟨rfl, rfl⟩)
    · next key l =>
      simp only [Option.ite_none_right_eq_some, Option.map_eq_some_iff] at h
      obtain ⟨rfl, n, hn, rfl⟩ := h
      exact .inr (.inr ⟨l, n, rfl, hn, rfl⟩)
    · cases h
  · rintro (⟨rfl, rfl⟩ | ⟨rfl, rfl⟩ | ⟨l, n, rfl, hn, rfl⟩)
    · rfl
    · rfl
    · simp [ofJson?, hn]

theorem isWritable_toJson (c : RowCount) : c.toJson.IsWritable := by
  cases c with
  | fixed n =>
    refine isWritable_ofMembers ?_
    rintro m hm
    rw [List.mem_singleton.mp hm]
    exact isWritable_number (Literal.isProper_ofNat n)
  | dynamic => exact isWritable_ofString "Dynamic"

theorem ofJson?_toJson {c : RowCount} (hc : c.Fits) : ofJson? c.toJson = some c := by
  cases c with
  | fixed n =>
    exact ofJson?_eq_some_iff.mpr (.inr (.inr ⟨_, n, rfl, Literal.count?_ofNat hc, rfl⟩))
  | dynamic => rfl

theorem spells_string_eq (text : String) :
    Token.Spells (.string (some text)) = IsString text :=
  funext fun _ => propext Token.spells_string_iff

/-- A text that spells the object of a fixed row count has its digits in it. -/
theorem exists_spaced_number_iff (before after : List (List Char → Prop)) (n : Nat)
    (s : List Char) :
    (∃ l : Literal, l.natural? = some n ∧
      Spaced (before ++ Token.Spells (.number l) :: after) s) ↔
        Spaced (before ++ IsNatural n :: after) s := by
  constructor
  · rintro ⟨l, hl, hs⟩
    obtain ⟨w, hw, hs⟩ := spaced_word_iff.mp hs
    cases hw with
    | number hw =>
      obtain ⟨hwhole, hvalue, -⟩ := Literal.spells_natural_iff.mp ⟨hw, hl⟩
      exact spaced_word_iff.mpr ⟨w, ⟨hwhole, hvalue⟩, hs⟩
  · intro hs
    obtain ⟨w, ⟨hwhole, hvalue⟩, hs⟩ := spaced_word_iff.mp hs
    obtain ⟨hw, hl⟩ := Literal.spells_natural_iff.mpr ⟨hwhole, hvalue, rfl⟩
    exact ⟨_, hl, spaced_word_iff.mpr ⟨w, .number hw, hs⟩⟩

/-- **The texts that are read are those of the grammar.** -/
theorem ofText?_eq_some_iff {text : String} {c : RowCount} :
    ofText? text = some c ↔ c.Spells text.toList := by
  have hfixed (n : Nat) := exists_spaced_number_iff
    [Token.openBrace.Spells, IsString "Fixed", Token.colon.Spells] [Token.closeBrace.Spells] n
    text.toList
  simp only [ofText?, Option.bind_eq_some_iff, ofJson?_eq_some_iff, Json.ofText?_eq_some_iff]
  constructor
  · rintro ⟨v, hv, ⟨rfl, rfl⟩ | ⟨rfl, rfl⟩ | ⟨l, n, rfl, hl, rfl⟩⟩
    · simp only [tokens, List.map_cons, List.map_nil, spells_string_eq] at hv
      exact .word hv
    · simp only [tokens, memberTokens, List.map_cons, List.map_nil, List.cons_append,
        List.nil_append, spells_string_eq] at hv
      exact .key hv
    · simp only [tokens, memberTokens, List.map_cons, List.map_nil, List.cons_append,
        List.nil_append, spells_string_eq] at hv
      obtain ⟨hnatural, hn⟩ := Literal.count?_eq_some_iff.mp hl
      exact .digits hn ((hfixed n).mp ⟨l, hnatural, hv⟩)
  · rintro (hs | hs | ⟨hn, hs⟩)
    · refine ⟨_, ?_, .inl ⟨rfl, rfl⟩⟩
      simpa only [tokens, List.map_cons, List.map_nil, spells_string_eq] using hs
    · refine ⟨_, ?_, .inr (.inl ⟨rfl, rfl⟩)⟩
      simpa only [tokens, memberTokens, List.map_cons, List.map_nil, List.cons_append,
        List.nil_append, spells_string_eq] using hs
    · obtain ⟨l, hnatural, hs⟩ := (hfixed _).mpr hs
      refine ⟨_, ?_, .inr (.inr ⟨l, _, rfl, Literal.count?_eq_some_iff.mpr ⟨hnatural, hn⟩, rfl⟩)⟩
      simpa only [tokens, memberTokens, List.map_cons, List.map_nil, List.cons_append,
        List.nil_append, spells_string_eq] using hs

/--
**The reader of row counts accepts just their format, and undoes the writer.**

A row count that a word holds is read back from the text that is written for it. Of all texts, those
are read that spell a row count, and each is read as the one that it spells.
-/
theorem reads_just_the_format :
    (∀ c : RowCount, c.Fits → ofText? c.toJson.text = some c) ∧
    ∀ (text : String) (c : RowCount), ofText? text = some c ↔ c.Spells text.toList := by
  refine ⟨fun c hc => ?_, fun text c => ofText?_eq_some_iff⟩
  rw [ofText?, ofText?_text (isWritable_toJson c), Option.bind_some]
  exact ofJson?_toJson hc

/-- The largest count is read back. -/
theorem reads_just_the_format_largest :
    (fixed maxCount).Fits ∧ ofText? (fixed maxCount).toJson.text = some (fixed maxCount) :=
  ⟨by decide, reads_just_the_format.1 _ (by decide)⟩

/-- Escapes and blanks make no difference. -/
example : ofText? " \x7b \"\\u0046ixed\" : 7\t\x7d\n" = some (fixed 7) := by
  cbv

/-- A point does, even where the number is the same. -/
example : ofText? "\x7b\"Fixed\":7.0\x7d" = none := by
  cbv

end RowCount

end BlockVector

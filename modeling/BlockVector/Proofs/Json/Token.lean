import BlockVector.Proofs.Json.Text

/-!
# Spellings of a row of tokens

A text spells a row of words when the words stand in it one after the other, with any number of
blanks before, between and behind them (`Spaced`). A token is a word that can have many spellings
(`Token.Spells`).

Cutting a text into tokens finds the row that it spells (`Token.spaced_of_ofText?`,
`Token.ofText?_of_spaced`). Two numbers side by side need a blank between them to be told apart.
Rows without two such neighbours are `Token.Separated`, and no value has other ones.
-/

namespace BlockVector.Json

/-- Four characters are blanks. -/
theorem Token.isBlank_iff {c : Char} :
    Token.isBlank c ↔ c = ' ' ∨ c = '\n' ∨ c = '\r' ∨ c = '\t' := by
  simp [Token.isBlank, or_assoc]

/-- A text that consists of words, each as one of `words` says, and of blanks around them. -/
inductive Spaced : List (List Char → Prop) → List Char → Prop
  | nil {blanks : List Char} : (∀ c ∈ blanks, Token.isBlank c) → Spaced [] blanks
  | cons {word : List Char → Prop} {words : List (List Char → Prop)} {blanks w s : List Char} :
    (∀ c ∈ blanks, Token.isBlank c) → word w → Spaced words s →
      Spaced (word :: words) (blanks ++ (w ++ s))

theorem Spaced.word {word : List Char → Prop} {words : List (List Char → Prop)} {w s : List Char}
    (hw : word w) (hs : Spaced words s) : Spaced (word :: words) (w ++ s) :=
  .cons (fun _ hc => absurd hc List.not_mem_nil) hw hs

/-- A blank in front makes no difference. -/
theorem Spaced.blank {words : List (List Char → Prop)} {c : Char} {s : List Char}
    (hc : Token.isBlank c) (h : Spaced words s) : Spaced words (c :: s) := by
  cases h with
  | nil hblanks => exact .nil (List.forall_mem_cons.mpr ⟨hc, hblanks⟩)
  | cons hblanks hw hs =>
    exact .cons (List.forall_mem_cons.mpr ⟨hc, hblanks⟩) hw hs

namespace Token

/-- A number is the one token whose end the text behind it decides. -/
def isNumber : Token → Bool
  | number _ => true
  | _ => false

/-- The spellings of a token. -/
inductive Spells : Token → List Char → Prop
  | openBrace : Spells openBrace ['{']
  | closeBrace : Spells closeBrace ['}']
  | openBracket : Spells openBracket ['[']
  | closeBracket : Spells closeBracket [']']
  | comma : Spells comma [',']
  | colon : Spells colon [':']
  | null : Spells null ['n', 'u', 'l', 'l']
  | true : Spells (bool true) ['t', 'r', 'u', 'e']
  | false : Spells (bool false) ['f', 'a', 'l', 's', 'e']
  | number {l : Literal} {w : List Char} : l.Spells w → Spells (number l) w
  | string {ps : List Piece} {body : List Char} : Row Piece.Spells ps body →
    Spells (string (Piece.text? ps)) ('"' :: (body ++ ['"']))

/-- The spellings of a string that denotes a text are those of the text. -/
theorem spells_string_iff {text : String} {w : List Char} :
    Spells (string (some text)) w ↔ IsString text w := by
  constructor
  · intro h
    generalize ht : string (some text) = t at h
    cases h with
    | string hps => exact ⟨_, Piece.exists_text?_iff.mp ⟨_, hps, (Token.string.inj ht).symm⟩, rfl⟩
    | _ => cases ht
  · rintro ⟨body, hbody, rfl⟩
    obtain ⟨ps, hps, htext⟩ := Piece.exists_text?_iff.mpr hbody
    rw [← htext]
    exact .string hps

/-! ## One token -/

/-- What begins as a literal does is read as a number. -/
theorem read_of_head {c : Char} {s : List Char} (hc : c = '-' ∨ c.isDigit) :
    read (c :: s) = (Literal.read (c :: s)).map fun r => (number r.1, r.2) := by
  unfold read
  split
  case h_11 => rfl
  all_goals
    next heq =>
      cases heq
      exact absurd hc (by decide)

/-- A literal begins with a minus sign or with a digit. -/
theorem exists_head_of_spells {l : Literal} {w : List Char} (h : l.Spells w) :
    ∃ c t, w = c :: t ∧ (c = '-' ∨ c.isDigit) := by
  obtain ⟨negative, hwhole, -, -⟩ := h
  obtain ⟨c, t, rfl⟩ := List.exists_cons_of_ne_nil hwhole.isDigits.1
  cases negative with
  | true => exact ⟨'-', _, rfl, .inl rfl⟩
  | false => exact ⟨c, _, rfl, .inr (hwhole.isDigits.2 c List.mem_cons_self)⟩

/-- **What is read is a spelling of the token**, and the text behind it is left. -/
theorem spells_of_read {s rest : List Char} {t : Token} (h : read s = some (t, rest)) :
    ∃ w, s = w ++ rest ∧ t.Spells w := by
  unfold read at h
  split at h
  case h_10 =>
    obtain ⟨⟨ps, r⟩, hread, heq⟩ := Option.map_eq_some_iff.mp h
    cases heq
    obtain ⟨body, rfl, hbody⟩ := Piece.read_eq_some_iff.mp hread
    refine ⟨_, ?_, .string hbody⟩
    rw [List.cons_append, List.append_assoc, List.singleton_append]
  case h_11 =>
    obtain ⟨⟨l, r⟩, hread, heq⟩ := Option.map_eq_some_iff.mp h
    cases heq
    obtain ⟨w, rfl, hw⟩ := Literal.spells_of_read hread
    exact ⟨w, rfl, .number hw⟩
  all_goals
    cases h
    exact ⟨_, rfl, by constructor⟩

/-- **A spelling of a token is read.** Of the text behind it only the end of a number depends. -/
theorem read_of_spells {t : Token} {w rest : List Char} (h : t.Spells w)
    (hrest : t.isNumber → Literal.IsEnd rest) : read (w ++ rest) = some (t, rest) := by
  cases h with
  | number hl =>
    obtain ⟨c, t, rfl, hc⟩ := exists_head_of_spells hl
    have hread := Literal.read_of_spells hl (hrest rfl)
    rw [List.cons_append] at hread ⊢
    rw [read_of_head hc, hread, Option.map_some]
  | string hps =>
    have hread : Piece.read (_ ++ '"' :: rest) = _ := Piece.read_eq_some_iff.mpr ⟨_, rfl, hps⟩
    rw [List.cons_append, List.append_assoc, List.singleton_append, read, hread, Option.map_some]
  | _ => rfl

/-! ## Rows of tokens -/

theorem read_of_isBlank {c : Char} (hc : isBlank c) (s : List Char) : read (c :: s) = none := by
  rcases isBlank_iff.mp hc with rfl | rfl | rfl | rfl <;> rfl

theorem ofText?_of_read {s rest : List Char} {t : Token} (h : read s = some (t, rest)) :
    ofText? s = (ofText? rest).map (t :: ·) := by
  cases s with
  | nil => cases h
  | cons c s =>
    have hc : ¬ isBlank c := fun hc => by
      rw [read_of_isBlank hc] at h
      cases h
    rw [ofText?, if_neg hc]
    split
    · next hnone => rw [h] at hnone; cases hnone
    · next hsome => rw [h] at hsome; cases hsome; rfl

theorem ofText?_append_of_isBlank {blanks : List Char} (hblanks : ∀ c ∈ blanks, isBlank c)
    (s : List Char) : ofText? (blanks ++ s) = ofText? s := by
  induction blanks with
  | nil => rfl
  | cons c blanks ih =>
    rw [List.cons_append, ofText?, if_pos (hblanks c List.mem_cons_self)]
    exact ih fun c hc => hblanks c (List.mem_cons_of_mem _ hc)

/-- **The tokens of a text are a row that it spells.** -/
theorem spaced_of_ofText? {s : List Char} {ts : List Token} (h : ofText? s = some ts) :
    Spaced (ts.map Spells) s := by
  fun_induction ofText? s generalizing ts with
  | case1 =>
    cases h
    exact .nil (by simp)
  | case2 c s hc ih => exact (ih h).blank hc
  | case3 c s _ hread => cases h
  | case4 c s hc t rest hread ih =>
    obtain ⟨ts, hts, rfl⟩ := Option.map_eq_some_iff.mp h
    obtain ⟨w, hw, hspells⟩ := spells_of_read hread
    rw [hw]
    exact .word hspells (ih hts)

/-- No number is the neighbour of a number. -/
def Separated : List Token → Prop
  | [] => True
  | t :: ts => (t.isNumber → ∀ t' ∈ ts.head?, t'.isNumber = .false) ∧ Separated ts

/-- A literal may end where a token that is no number begins. -/
theorem isEnd_of_spells {t : Token} {w : List Char} (h : t.Spells w) (ht : t.isNumber = .false)
    (rest : List Char) : Literal.IsEnd (w ++ rest) := by
  cases h with
  | number _ => cases ht
  | _ => simp [Literal.IsEnd, Literal.NoDigit]

/-- A literal may end at a blank. -/
theorem isEnd_of_isBlank {c : Char} (hc : isBlank c) (rest : List Char) :
    Literal.IsEnd (c :: rest) := by
  rcases isBlank_iff.mp hc with rfl | rfl | rfl | rfl <;> simp [Literal.IsEnd, Literal.NoDigit]

theorem isEnd_of_spaced {ts : List Token} {s : List Char} (h : Spaced (ts.map Spells) s)
    (hts : ∀ t ∈ ts.head?, t.isNumber = .false) : Literal.IsEnd s := by
  generalize hwords : ts.map Spells = words at h
  cases h with
  | nil hblanks =>
    cases s with
    | nil => simp [Literal.IsEnd, Literal.NoDigit]
    | cons c s => exact isEnd_of_isBlank (hblanks c List.mem_cons_self) s
  | @cons _ _ blanks w s hblanks hw hs =>
    cases blanks with
    | nil =>
      obtain ⟨t, ts, rfl, rfl, rfl⟩ := List.map_eq_cons_iff.mp hwords
      exact isEnd_of_spells hw (hts t rfl) s
    | cons c blanks => exact isEnd_of_isBlank (hblanks c List.mem_cons_self) _

/-- **A row of tokens is found in every text that spells it**, unless two numbers are neighbours. -/
theorem ofText?_of_spaced {ts : List Token} {s : List Char} (h : Spaced (ts.map Spells) s)
    (hts : Separated ts) : ofText? s = some ts := by
  induction ts generalizing s with
  | nil =>
    obtain ⟨hblanks⟩ := h
    rw [← List.append_nil s, ofText?_append_of_isBlank hblanks, ofText?]
  | cons t ts ih =>
    obtain _ | ⟨hblanks, hw, hrest⟩ := h
    have hread := read_of_spells hw fun ht => isEnd_of_spaced hrest (hts.1 ht)
    rw [ofText?_append_of_isBlank hblanks, ofText?_of_read hread, ih hrest hts.2, Option.map_some]

/-! ## What is written -/

/-- A token that can be written: a literal of digits, and a string that denotes a text. -/
def IsWritable : Token → Prop
  | number l => l.IsProper
  | string text => text.isSome
  | _ => True

/-- **What is written is a spelling of the token.** -/
theorem spells_text {t : Token} (ht : t.IsWritable) : t.Spells t.text := by
  cases t with
  | openBrace => exact .openBrace
  | closeBrace => exact .closeBrace
  | openBracket => exact .openBracket
  | closeBracket => exact .closeBracket
  | comma => exact .comma
  | colon => exact .colon
  | null => exact .null
  | bool b =>
    cases b with
    | true => exact .true
    | false => exact .false
  | number l => exact .number (Literal.spells_text ht)
  | string text =>
    obtain ⟨text, rfl⟩ := Option.isSome_iff_exists.mp ht
    exact spells_string_iff.mpr ⟨_, Piece.row_written text.toList, rfl⟩

theorem spaced_flatMap_text {ts : List Token} (hts : ∀ t ∈ ts, t.IsWritable) :
    Spaced (ts.map Spells) (ts.flatMap text) := by
  induction ts with
  | nil => exact .nil (by simp)
  | cons t ts ih =>
    obtain ⟨ht, hts⟩ := List.forall_mem_cons.mp hts
    exact .word (spells_text ht) (ih hts)

end Token

end BlockVector.Json

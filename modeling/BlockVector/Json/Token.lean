import BlockVector.Json.Literal

/-!
# Tokens of a JSON text

A JSON text is a row of tokens with blanks between them. Reading goes in two steps, and this is the
first: the text is cut into tokens (`Token.ofText?`). The second builds values from the tokens
(`BlockVector.Json.Reader`).

## Strings

The characters between two quotes are first cut into `Piece`s, one per character or escape. A
`\u` escape stands for a 16-bit unit, and two units may stand for one character together. Units that
pair up with nothing denote no text, but they do not make the token malformed: a reader that has no
use for the string never looks at its text.

## Termination

No fuel: `Piece.read` recurses on the text itself, `Token.ofText?` on the length of what is left,
which `Token.length_read` bounds.
-/

namespace BlockVector.Json

/-! ## Strings -/

/-- One character or escape of a string. -/
inductive Piece where
  /-- A character, written as itself or by a one-letter escape. -/
  | char (c : Char)
  /-- A 16-bit unit, written in four hexadecimal digits. -/
  | unit (u : Nat)
  deriving DecidableEq, Repr

namespace Piece

/-- The value of a hexadecimal digit. -/
def hexValue? (c : Char) : Option Nat :=
  if '0' ≤ c ∧ c ≤ '9' then some (c.toNat - '0'.toNat)
  else if 'a' ≤ c ∧ c ≤ 'f' then some (c.toNat - 'a'.toNat + 10)
  else if 'A' ≤ c ∧ c ≤ 'F' then some (c.toNat - 'A'.toNat + 10)
  else none

/-- The unit that four hexadecimal digits denote. -/
def unit? (a b c d : Char) : Option Nat := do
  return (((← hexValue? a) * 16 + (← hexValue? b)) * 16 + (← hexValue? c)) * 16 + (← hexValue? d)

/-- The character behind a one-letter escape. -/
def escape? : Char → Option Char
  | '"' => some '"'
  | '\\' => some '\\'
  | '/' => some '/'
  | 'b' => some '\x08'
  | 'f' => some '\x0c'
  | 'n' => some '\n'
  | 'r' => some '\r'
  | 't' => some '\t'
  | _ => none

/-- Reads up to the closing quote; the second part is what follows it. Control characters must be
escaped. -/
def read : List Char → Option (List Piece × List Char)
  | [] => none
  | '"' :: s => some ([], s)
  | '\\' :: 'u' :: a :: b :: c :: d :: s =>
    (unit? a b c d).bind fun u => (read s).map fun r => (unit u :: r.1, r.2)
  | '\\' :: e :: s => (escape? e).bind fun c => (read s).map fun r => (char c :: r.1, r.2)
  | c :: s => if c < ' ' ∨ c = '\\' then none else (read s).map fun r => (char c :: r.1, r.2)

/-- The first half of a pair of units. -/
def isHigh (u : Nat) : Bool := 0xD800 ≤ u && u < 0xDC00

/-- The second half of a pair of units. -/
def isLow (u : Nat) : Bool := 0xDC00 ≤ u && u < 0xE000

/-- The characters that the pieces of a string denote, if they denote any. -/
def characters? : List Piece → Option (List Char)
  | [] => some []
  | char c :: ps => (characters? ps).map (c :: ·)
  | unit u :: unit v :: ps =>
    if isHigh u && isLow v then
      (characters? ps).map (Char.ofNat (0x10000 + (u - 0xD800) * 0x400 + (v - 0xDC00)) :: ·)
    else if isHigh u || isLow u then none
    else (characters? (unit v :: ps)).map (Char.ofNat u :: ·)
  | unit u :: ps =>
    if isHigh u || isLow u then none else (characters? ps).map (Char.ofNat u :: ·)

/-- The text that the pieces of a string denote, if they denote one. -/
def text? (ps : List Piece) : Option String := (characters? ps).map String.ofList

theorem length_read {s rest : List Char} {ps : List Piece} (h : read s = some (ps, rest)) :
    rest.length < s.length := by
  fun_induction read s generalizing ps with
  | case1 => simp at h
  | case2 => simp_all
  | case3 a b c d s ih =>
    simp only [Option.bind_eq_some_iff, Option.map_eq_some_iff, Prod.exists, Prod.mk.injEq] at h
    obtain ⟨u, -, qs, r, hr, -, rfl⟩ := h
    have := ih hr
    simp only [List.length_cons]
    omega
  | case4 e s _ ih =>
    simp only [Option.bind_eq_some_iff, Option.map_eq_some_iff, Prod.exists, Prod.mk.injEq] at h
    obtain ⟨u, -, qs, r, hr, -, rfl⟩ := h
    have := ih hr
    simp only [List.length_cons]
    omega
  | case5 => simp at h
  | case6 c s _ _ _ _ ih =>
    simp only [Option.map_eq_some_iff, Prod.exists, Prod.mk.injEq] at h
    obtain ⟨qs, r, hr, -, rfl⟩ := h
    have := ih hr
    simp only [List.length_cons]
    omega

/-- The hexadecimal digit of a value below sixteen. -/
def hexDigit (n : Nat) : Char := (Nat.toDigits 16 n).headD '0'

/-- A character as it is written between quotes: quotes, backslashes and control characters are
escaped, all else stands for itself. -/
def written (c : Char) : List Char :=
  if c = '"' then ['\\', '"']
  else if c = '\\' then ['\\', '\\']
  else if c = '\n' then ['\\', 'n']
  else if c = '\r' then ['\\', 'r']
  else if c = '\t' then ['\\', 't']
  else if c < ' ' then ['\\', 'u', '0', '0', hexDigit (c.toNat / 16), hexDigit (c.toNat % 16)]
  else [c]

end Piece

/-! ## Tokens -/

/-- A token of a JSON text. -/
inductive Token where
  | openBrace
  | closeBrace
  | openBracket
  | closeBracket
  | comma
  | colon
  | null
  | bool (b : Bool)
  | number (l : Literal)
  /-- A string, with the text that it denotes if it denotes one. -/
  | string (text : Option String)
  deriving DecidableEq, Repr

namespace Token

/-- The characters that may stand between tokens. -/
def isBlank (c : Char) : Bool := c = ' ' || c = '\n' || c = '\r' || c = '\t'

/-- Reads one token from the front of a text; the second part is what follows it. -/
def read : List Char → Option (Token × List Char)
  | '{' :: s => some (openBrace, s)
  | '}' :: s => some (closeBrace, s)
  | '[' :: s => some (openBracket, s)
  | ']' :: s => some (closeBracket, s)
  | ',' :: s => some (comma, s)
  | ':' :: s => some (colon, s)
  | 'n' :: 'u' :: 'l' :: 'l' :: s => some (null, s)
  | 't' :: 'r' :: 'u' :: 'e' :: s => some (bool true, s)
  | 'f' :: 'a' :: 'l' :: 's' :: 'e' :: s => some (bool false, s)
  | '"' :: s => (Piece.read s).map fun r => (string (Piece.text? r.1), r.2)
  | s => (Literal.read s).map fun r => (number r.1, r.2)

/-- A token has at least one character. -/
theorem length_read {s rest : List Char} {t : Token} (h : read s = some (t, rest)) :
    rest.length < s.length := by
  unfold read at h
  split at h
  case h_10 =>
    simp only [Option.map_eq_some_iff, Prod.exists, Prod.mk.injEq] at h
    obtain ⟨ps, r, hr, -, rfl⟩ := h
    exact Nat.lt_succ_of_lt (Piece.length_read hr)
  case h_11 =>
    simp only [Option.map_eq_some_iff, Prod.exists, Prod.mk.injEq] at h
    obtain ⟨l, r, hr, -, rfl⟩ := h
    exact Literal.length_read hr
  all_goals
    simp only [Option.some.injEq, Prod.mk.injEq] at h
    obtain ⟨-, rfl⟩ := h
    simp only [List.length_cons]
    omega

/-- Cuts a text into its tokens. A text with anything else in it has none. -/
def ofText? : List Char → Option (List Token)
  | [] => some []
  | c :: s =>
    if isBlank c then ofText? s
    else
      match _ : read (c :: s) with
      | none => none
      | some (t, rest) => (ofText? rest).map (t :: ·)
termination_by s => s.length
decreasing_by
  · simp
  · exact length_read ‹_›

/-- The characters of a token. A string that denotes no text has no written form of its own and is
written empty. -/
def text : Token → List Char
  | openBrace => ['{']
  | closeBrace => ['}']
  | openBracket => ['[']
  | closeBracket => [']']
  | comma => [',']
  | colon => [':']
  | null => ['n', 'u', 'l', 'l']
  | bool true => ['t', 'r', 'u', 'e']
  | bool false => ['f', 'a', 'l', 's', 'e']
  | number l => l.text
  | string s => '"' :: (s.getD "").toList.flatMap Piece.written ++ ['"']

end Token

end BlockVector.Json

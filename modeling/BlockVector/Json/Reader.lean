import BlockVector.Json.Writer

/-!
# Reading JSON values

The second step of reading: from tokens to a value. The brackets that are open around the value
being read are kept on a stack, innermost first, with what they hold so far. Two functions take
turns: `readValue` stands where a value must begin, `readRest` where one has just ended.

Each call consumes a token, so both recurse on the tokens, whatever the depth of nesting.

Nothing is refused for its depth in this step. A `Depth` bounds how many brackets may be open around
what a text is read *for*, and so it is kept by the reader of the value (`Stacked.ofJson?`): what
that reader skips, as the value of a key that it does not know, may be nested as deeply as it likes.
-/

namespace BlockVector.Json

/-- An open bracket around the value being read, with what it holds so far, last first. -/
inductive Frame where
  | array (items : List Json)
  /-- An open object; `key` belongs to the value being read. -/
  | object (members : List (Option String × Json)) (key : Option String)

mutual

/-- Reads on where a value must begin. -/
def readValue (stack : List Frame) : List Token → Option Json
  | .null :: ts => readRest stack .null ts
  | .bool b :: ts => readRest stack (.bool b) ts
  | .number l :: ts => readRest stack (.number l) ts
  | .string s :: ts => readRest stack (.string s) ts
  | .openBracket :: .closeBracket :: ts => readRest stack (.array []) ts
  | .openBracket :: ts => readValue (.array [] :: stack) ts
  | .openBrace :: .closeBrace :: ts => readRest stack (.object []) ts
  | .openBrace :: .string key :: .colon :: ts => readValue (.object [] key :: stack) ts
  | _ => none
termination_by structural ts => ts

/-- Reads on where the value `v` has just ended. -/
def readRest (stack : List Frame) (v : Json) (ts : List Token) : Option Json :=
  match stack, ts with
  | [], [] => some v
  | .array items :: stack, .comma :: ts => readValue (.array (v :: items) :: stack) ts
  | .array items :: stack, .closeBracket :: ts => readRest stack (.array (v :: items).reverse) ts
  | .object members key :: stack, .comma :: .string next :: .colon :: ts =>
    readValue (.object ((key, v) :: members) next :: stack) ts
  | .object members key :: stack, .closeBrace :: ts =>
    readRest stack (.object ((key, v) :: members).reverse) ts
  | _, _ => none
termination_by structural ts

end

/-! ## Depth -/

/-- How many brackets may be open at once around what is read. -/
inductive Depth where
  | unlimited
  | atMost (brackets : Nat)
  deriving DecidableEq, Repr

namespace Depth

/-- The depth of a reader that is not told otherwise: the 128th open bracket is refused. -/
def standard : Depth := atMost 127

/-- So many brackets may be open at once. -/
def admits : Depth → Nat → Bool
  | unlimited, _ => true
  | atMost limit, brackets => brackets ≤ limit

/-- What may be opened inside of one more bracket, if that one may be opened. -/
def enter? : Depth → Option Depth
  | unlimited => some unlimited
  | atMost 0 => none
  | atMost (limit + 1) => some (atMost limit)

@[simp] theorem unlimited_admits (brackets : Nat) : unlimited.admits brackets := rfl

@[simp] theorem enter?_unlimited : unlimited.enter? = some unlimited := rfl

/-- One more bracket may be open around others where it may be opened, and they inside of it. -/
theorem admits_succ (depth : Depth) (brackets : Nat) :
    depth.admits (brackets + 1) = depth.enter?.any (·.admits brackets) := by
  cases depth with
  | unlimited => rfl
  | atMost limit =>
    cases limit with
    | zero => simp [admits, enter?]
    | succ limit => simp [admits, enter?]

/-- Of two values side by side the one with more open brackets decides. -/
theorem admits_max (depth : Depth) (m n : Nat) :
    depth.admits (max m n) = (depth.admits m && depth.admits n) := by
  cases depth with
  | unlimited => rfl
  | atMost limit =>
    rw [Bool.eq_iff_iff, Bool.and_eq_true]
    simp only [admits, decide_eq_true_eq]
    exact Nat.max_le

end Depth

/-! ## Values -/

/-- The value that a row of tokens spells. -/
def ofTokens? (ts : List Token) : Option Json := readValue [] ts

/-- The value of a JSON text: one value, with blanks around its tokens and nothing else. -/
def ofText? (s : String) : Option Json := (Token.ofText? s.toList).bind ofTokens?

end BlockVector.Json

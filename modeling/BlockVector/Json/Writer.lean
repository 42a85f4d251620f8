import BlockVector.Json.Token

/-!
# JSON values and how they are written

Values as their text shows them: numbers keep their digits, objects keep the order and the
repetitions of their keys, and a string whose escapes denote no text is still a string. What a value
means, and whether a repeated key is tolerated, is for the reader of the value to say.

A value is written as the row of its tokens without a blank between them.
-/

namespace BlockVector

/-- A JSON value. -/
inductive Json where
  | null
  | bool (b : Bool)
  | number (l : Json.Literal)
  /-- A string, with the text that it denotes if it denotes one. -/
  | string (text : Option String)
  | array (items : List Json)
  /-- An object: its keys and values, in order. -/
  | object (members : List (Option String × Json))
  deriving Repr

namespace Json

/-- A natural number as a value. -/
def ofNat (n : Nat) : Json := number (Literal.ofNat n)

/-- A text as a value. -/
def ofString (s : String) : Json := string (some s)

/-- An object with the given keys and values. -/
def ofMembers (members : List (String × Json)) : Json :=
  object (members.map fun m => (some m.1, m.2))

/-- The text of a string. -/
def text? : Json → Option String
  | string s => s
  | _ => none

/-- The items of an array. -/
def items? : Json → Option (List Json)
  | array items => some items
  | _ => none

/-- The values of the given keys, in the order of `keys`: from an object in which each of them
occurs once, among any others, or from an array of just these values.

Every key of the object must denote a text. -/
def fields? (keys : List String) : Json → Option (List Json)
  | array items => if items.length = keys.length then some items else none
  | object members =>
    if members.all (·.1.isSome) then
      keys.mapM fun key =>
        match members.filter (·.1 = some key) with
        | [member] => some member.2
        | _ => none
    else none
  | _ => none

/-- The value of a key in an object in which it occurs. -/
def get? (key : String) : Json → Option Json
  | object members => (members.find? (·.1 = some key)).map (·.2)
  | _ => none

/-! ## Writing -/

mutual

/-- The tokens of a value. -/
def tokens : Json → List Token
  | null => [.null]
  | bool b => [.bool b]
  | number l => [.number l]
  | string s => [.string s]
  | array [] => [.openBracket, .closeBracket]
  | array (v :: vs) => .openBracket :: (v.tokens ++ itemTokens vs)
  | object [] => [.openBrace, .closeBrace]
  | object ((key, v) :: ms) =>
    .openBrace :: .string key :: .colon :: (v.tokens ++ memberTokens ms)

/-- The tokens after the first item of an array. -/
def itemTokens : List Json → List Token
  | [] => [.closeBracket]
  | v :: vs => .comma :: (v.tokens ++ itemTokens vs)

/-- The tokens after the first member of an object. -/
def memberTokens : List (Option String × Json) → List Token
  | [] => [.closeBrace]
  | (key, v) :: ms => .comma :: .string key :: .colon :: (v.tokens ++ memberTokens ms)

end

/-- The text of a value. -/
def text (v : Json) : String := String.ofList (v.tokens.flatMap Token.text)

end Json

end BlockVector

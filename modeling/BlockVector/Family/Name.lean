import BlockVector.Family.Composition

/-!
# Names of families

A family is written as the name of its leaf or as `pair(A,B)`. A reader accepts `combined(A,B)` as
well, which names what the two compose to.

Reading goes like that of JSON values: the text is cut into words and marks, and the brackets that
are open are kept on a stack, innermost first. Both functions recurse on what is left of the tokens.
-/

namespace BlockVector.Family

/-- The name of a family. -/
def name : Family → String
  | leaf l => l.name
  | pair a b => "pair(" ++ a.name ++ "," ++ b.name ++ ")"

/-! ## Tokens -/

/-- A token of the name of a family. -/
inductive Mark where
  | word (text : List Char)
  | opening
  | comma
  | closing
  deriving DecidableEq, Repr

/-- A character in front of the tokens of what follows it. -/
def Mark.cons (c : Char) (marks : List Mark) : List Mark :=
  if c = '(' then opening :: marks
  else if c = ',' then comma :: marks
  else if c = ')' then closing :: marks
  else
    match marks with
    | word text :: rest => word (c :: text) :: rest
    | _ => word [c] :: marks

/-- The tokens of a text. -/
def Mark.ofText (s : List Char) : List Mark := s.foldr cons []

/-! ## Reading -/

/-- An open bracket: what its two families will be joined by, and the first of them once it has
been read. -/
inductive Open where
  | first (join : Family → Family → Family)
  | second (join : Family → Family → Family) (a : Family)

/-- What joins the two families between the brackets behind a word. -/
def join? (word : List Char) : Option (Family → Family → Family) :=
  if String.ofList word = "pair" then some pair
  else if String.ofList word = "combined" then some combine
  else none

mutual

/-- Reads on where a family must begin. -/
def readName (stack : List Open) : List Mark → Option Family
  | .word w :: .opening :: marks => (join? w).bind fun join => readName (.first join :: stack) marks
  | .word w :: marks => (Leaf.ofName? (String.ofList w)).bind fun l => readRest stack (leaf l) marks
  | _ => none
termination_by structural marks => marks

/-- Reads on where a family has just ended. -/
def readRest (stack : List Open) (F : Family) (marks : List Mark) : Option Family :=
  match stack, marks with
  | [], [] => some F
  | .first join :: stack, .comma :: marks => readName (.second join F :: stack) marks
  | .second join a :: stack, .closing :: marks => readRest stack (join a F) marks
  | _, _ => none
termination_by structural marks

end

/-- The family with a given name. -/
def ofName? (s : String) : Option Family := readName [] (Mark.ofText s.toList)

end BlockVector.Family

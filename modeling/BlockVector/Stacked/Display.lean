import BlockVector.Number.Text
import BlockVector.Stacked.Basic

/-!
# Showing a vector

A leaf is shown by its layout. A number of decimal places concerns boxed columns only, and only
where the vector is not part of another: the parts of a pair are shown one after the other, each
followed by a line break, with as many digits as their numbers need. It has to be in range even
where nothing is written with it.
-/

namespace BlockVector

/-! ## Boxes -/

namespace Box

/-- A text in a field of a given width, at its right end. -/
def padded (width : Nat) (text : String) : String :=
  String.ofList (List.replicate (width - text.length) ' ') ++ text

/-- The width of the widest text. -/
def width (texts : List String) : Nat := (texts.map String.length).foldl max 0

/-- A line of a box: a text between its edges. -/
def line (left right : Char) (width : Nat) (text : String) : String :=
  "  " ++ left.toString ++ " " ++ padded width text ++ " " ++ right.toString ++ "\n"

/-- A box with a line for each text, as wide as the widest of them, between empty lines. A box
without lines is written in a row, and no box is wider than a field. -/
def text (texts : List String) : Except Failure String :=
  if texts = [] then .ok "[ ]"
  else
    let w := width texts
    if w ≤ Number.maxField then
      .ok ("\n" ++ line '┌' '┐' w "" ++ String.join (texts.map (line '│' '│' w))
        ++ line '└' '┘' w "" ++ "\n")
    else .error .fieldOutOfRange

end Box

namespace Leaf.Layout

variable {f : Format}

/-- The numbers of a leaf, one after the other. -/
def row (xs : List (Number f)) : String := ", ".intercalate (xs.map Number.text)

/-- The text of a leaf. -/
def text (precision : Option Nat) (xs : List (Number f)) : Layout → Except Failure String
  | box => do Box.text (← xs.mapM (Number.textAt precision))
  | tuple => .ok ("(" ++ row xs ++ ")")
  | named name => .ok (name ++ " = " ++ row xs)
  | word w => .ok w
  | count noun => .ok (noun ++ " of " ++ Nat.repr xs.length)

end Leaf.Layout

namespace Stacked

variable {f : Format}

/-- A vector laid out with a number of decimal places that is in range. -/
def layOut (precision : Option Nat) : {F : Family} → Stacked (Number f) F → Except Failure String
  | .leaf l, leaf xs => l.layout.text precision xs
  | _, pair u v => do
    let first ← u.layOut none
    let second ← v.layOut none
    return first ++ "\n" ++ second ++ "\n"

/-- The text of a vector. -/
def display {F : Family} (precision : Option Nat) (v : Stacked (Number f) F) :
    Except Failure String :=
  if precision.all (· ≤ Number.maxField) then v.layOut precision else .error .fieldOutOfRange

end Stacked

end BlockVector

import BlockVector.RowCount
import BlockVector.Scalar
import BlockVector.Stacked.Basic

/-!
# Vectors in JSON

A leaf is written by its encoding, and a pair as an object with its two parts. So the text shows
where one part ends and the next begins, even between two dynamic ones.

Reading goes by the family. Objects are read with their keys in any order and with other keys among
them, or as the arrays of their values. The rows of a leaf must be as many as its row count admits.

Two things are left to whoever reads: the number that a literal stands for, and the `Json.Depth`, as
a pair and the encodings of a leaf open brackets around what they hold.
-/

namespace BlockVector

namespace Leaf.Encoding

variable {α : Type}

/-- The rows of a leaf as a JSON value. -/
def toJson (number : α → Json) (rows : List α) : Encoding → Json
  | array => .array (rows.map number)
  | counted => .array [.array (rows.map number), .ofNat rows.length, .null]
  | fields keys => .ofMembers (keys.zip (rows.map number))
  | bare => (rows.map number).headD .null
  | unit => .null

/-- The brackets that are open around the numbers of a leaf. -/
def brackets : Encoding → Nat
  | array => 1
  | counted => 2
  | fields _ => 1
  | bare => 0
  | unit => 0

/-- The numbers that a JSON value holds. -/
def numbers? : Encoding → Json → Option (List Json)
  | array, v => v.items?
  | counted, .array [.array items, .number count, .null] =>
    if count.count? = some items.length then some items else none
  | counted, _ => none
  | fields keys, v => v.fields? keys
  | bare, v => some [v]
  | unit, .null => some []
  | unit, _ => none

end Leaf.Encoding

namespace Stacked

variable {α : Type}

/-- The keys of the parts of a pair. -/
def pairKeys : List String := ["first", "second"]

/-- A vector as a JSON value. -/
def toJson (number : α → Json) : {F : Family} → Stacked α F → Json
  | .leaf l, leaf rows => l.encoding.toJson number rows
  | _, pair u v => .ofMembers (pairKeys.zip [u.toJson number, v.toJson number])

/-- The vector of a family that a JSON value stands for. -/
def ofJson? (number? : Json → Option α) : Json.Depth → (F : Family) → Json → Option (Stacked α F)
  | depth, .leaf l, v => do
    let items ← l.encoding.numbers? v
    let rows ← items.mapM number?
    if l.rows.admits rows.length && depth.admits l.encoding.brackets then some (leaf rows) else none
  | depth, .pair a b, v => do
    let inner ← depth.enter?
    match v.fields? pairKeys with
    | some [first, second] =>
      let u ← ofJson? number? inner a first
      let w ← ofJson? number? inner b second
      return pair u w
    | _ => none

/-- The JSON text of a vector. -/
def toText (s : Scalar) {F : Family} (v : Stacked s.Coordinate F) : String :=
  (v.toJson (Number.toJson s.window)).text

/-- The vector of a family that a JSON text stands for, with the numbers that `number?` reads and as
deep as `depth` allows. -/
def readText? (number? : Json → Option α) (depth : Json.Depth) (F : Family) (text : String) :
    Option (Stacked α F) :=
  (Json.ofText? text).bind (ofJson? number? depth F)

/-- The vector of a family that a JSON text stands for: the numbers nearest to its literals, not
nested too deep. -/
def ofText? (s : Scalar) (F : Family) (text : String) : Option (Stacked s.Coordinate F) :=
  readText? (Number.ofJson? s.format) .standard F text

end Stacked

end BlockVector

import BlockVector.RowCount

/-!
# Leaves

A leaf is a kind of vector that is not made of other vectors. It is described by what the rest of
the library asks of it: its row count, what it does with the rows of a dense vector, the names of
its coordinates, and its forms in text and in JSON.

A leaf with a fixed number of rows is *strict* when it takes dense vectors of just that many rows,
and *lenient* when it reads as many rows as it needs and ignores the others. A dynamic leaf takes
every dense vector as it is.

A leaf also declares whether it is empty, that is, whether it is a null vector. Composition goes by
the declaration (`BlockVector.Composition`), which may be wrong.
-/

namespace BlockVector

namespace Leaf

/-- How the coordinates of a leaf are named. -/
inductive Labels where
  /-- `x` and the index. -/
  | indexed
  /-- A list of names. -/
  | listed (names : List String)
  /-- One name for all. -/
  | same (name : String)
  /-- `r` and the index, counted from one. -/
  | ordinal
  deriving DecidableEq, Repr

/-- The name of coordinate `index`. -/
def Labels.name : Labels → Nat → Except Failure String
  | indexed, index => .ok ("x" ++ Nat.repr index)
  | listed names, index =>
    match names[index]? with
    | some name => .ok name
    | none => .error (.unnamedCoordinate names.length index)
  | same name, _ => .ok name
  | ordinal, index => (Count.add index 1).map fun place => "r" ++ Nat.repr place

/-- How a leaf is shown. -/
inductive Layout where
  /-- A boxed column of its numbers. -/
  | box
  /-- Its numbers between parentheses. -/
  | tuple
  /-- A name and its number. -/
  | named (name : String)
  /-- A word in place of its numbers. -/
  | word (word : String)
  /-- A noun and how many numbers there are. -/
  | count (noun : String)
  deriving DecidableEq, Repr

/-- How a leaf is written in JSON. -/
inductive Encoding where
  /-- The array of its numbers. -/
  | array
  /-- The array of its numbers, how many there are, and `null`. -/
  | counted
  /-- An object with a key for each number. -/
  | fields (keys : List String)
  /-- Its one number. -/
  | bare
  /-- The value `null`. -/
  | unit
  deriving DecidableEq, Repr

end Leaf

/-- A kind of vector that is not made of other vectors. -/
structure Leaf where
  name : String
  /-- How many rows its vectors have. It is assumed to be the same for all kinds of coordinates. -/
  rows : RowCount
  /-- It declares to be a null vector. -/
  declaredEmpty : Bool
  /-- It ignores the rows it does not need. -/
  lenient : Bool := false
  labels : Leaf.Labels := .indexed
  layout : Leaf.Layout := .box
  encoding : Leaf.Encoding := .array
  deriving DecidableEq, Repr

namespace Leaf

/-! ## Rows of a dense vector -/

/-- Why a leaf cannot be built from a dense vector of `rows` rows, if it cannot. -/
def refusal (l : Leaf) (rows : Nat) : Option Failure :=
  match l.rows with
  | .dynamic => none
  | .fixed n =>
    if l.lenient then if rows < n then some .rowOutOfRange else none
    else if rows = n then none else some (.wrongRows n rows)

/-- The rows that a leaf takes from a dense vector. -/
def keep {α : Type u} (l : Leaf) (xs : List α) : List α :=
  match l.rows, l.lenient with
  | .fixed n, true => xs.take n
  | _, _ => xs

/-- A leaf never refuses what its row count admits. -/
theorem refusal_of_admits {l : Leaf} {rows : Nat} (h : l.rows.admits rows) :
    l.refusal rows = none := by
  unfold refusal
  split
  · rfl
  · next n hn => simp_all [RowCount.admits]

/-- Of as many rows as its row count admits, a leaf takes all. -/
theorem keep_of_admits {α : Type u} {l : Leaf} {xs : List α} (h : l.rows.admits xs.length) :
    l.keep xs = xs := by
  unfold keep
  split
  · next n hn _ => simp_all [RowCount.admits]
  · rfl

/-- What a leaf takes has as many rows as its row count admits. -/
theorem admits_length_keep {α : Type u} {l : Leaf} {xs : List α} (h : l.refusal xs.length = none) :
    l.rows.admits (l.keep xs).length := by
  cases hl : l.rows with
  | dynamic => rfl
  | fixed n => cases hlenient : l.lenient <;> simp_all [refusal, keep, RowCount.admits]

/-- A leaf refuses a dense vector with fewer rows than it must have. -/
theorem le_of_refusal_eq_none {l : Leaf} {n rows : Nat} (hl : l.rows = .fixed n)
    (h : l.refusal rows = none) : n ≤ rows := by
  unfold refusal at h
  simp only [hl] at h
  split at h <;> split at h <;> simp_all

/-! ## The leaves in use -/

/-- A column of `n` rows. -/
def column (n : Nat) : Leaf :=
  { name := "fixed" ++ Nat.repr n, rows := .fixed n, declaredEmpty := n = 0 }

/-- A column of as many rows as it likes. -/
def dynamic : Leaf :=
  { name := "dynamic", rows := .dynamic, declaredEmpty := false, encoding := .counted }

/-- A velocity in the plane. -/
def velocity : Leaf :=
  { name := "velocity", rows := .fixed 2, declaredEmpty := false, lenient := true,
    labels := .listed ["vx", "vy"], layout := .tuple, encoding := .fields ["vx", "vy"] }

/-- A single factor. -/
def gain : Leaf :=
  { name := "gain", rows := .fixed 1, declaredEmpty := false, lenient := true,
    labels := .same "gain", layout := .named "gain", encoding := .bare }

/-- The input of a system without one. -/
def noInput : Leaf :=
  { name := "noinput", rows := .fixed 0, declaredEmpty := true, lenient := true,
    layout := .word "none", encoding := .unit }

/-- A list of numbers. -/
def ragged : Leaf :=
  { name := "ragged", rows := .dynamic, declaredEmpty := false, labels := .ordinal,
    layout := .count "ragged" }

/-- A column of a hundred rows. -/
def wide : Leaf := { column 100 with name := "wide" }

/-- A column without rows. -/
def nothing : Leaf := { column 0 with name := "nothing" }

/-- A column without rows that does not declare to be empty. -/
def falseNonempty : Leaf := { column 0 with name := "false_nonempty", declaredEmpty := false }

/-- A column of two rows that declares to be empty. -/
def falseEmpty : Leaf := { column 2 with name := "false_empty", declaredEmpty := true }

/-- Columns of up to this many rows have a name of their own. -/
def maxColumn : Nat := 64

/-- All leaves that have a name. -/
def all : List Leaf :=
  [dynamic, velocity, gain, noInput, ragged, wide, nothing, falseNonempty, falseEmpty]
    ++ (List.range (maxColumn + 1)).map column

/-- The leaf with a given name. -/
def ofName? (name : String) : Option Leaf := all.find? (·.name = name)

end Leaf

end BlockVector

/-!
# Mismatches

Why a checked conversion refuses a dense vector, and what it writes to the log when it does. The
counts of a wrong size are kept as their text: the expected one may be the word for a dynamic row
count.
-/

namespace BlockVector

/-- Why a dense vector is refused. -/
inductive Mismatch where
  /-- The vector has `actual` rows in place of `expected`. -/
  | wrongSize (expected actual : String)
  /-- Nothing tells how `rows` rows are to be shared out between two dynamic parts. -/
  | ambiguousSplit (rows : Nat)
  /-- The first part was to end at `split`, past the end of `rows` rows. -/
  | splitOutOfRange (split rows : Nat)
  deriving DecidableEq, Repr

namespace Mismatch

/-- The text a mismatch is reported with. -/
def message : Mismatch → String
  | wrongSize expected actual => "Dimension mismatch: expected " ++ expected ++ ", got " ++ actual
  | ambiguousSplit rows =>
    "Ambiguous split of " ++ Nat.repr rows ++ " rows between two dynamically sized vectors"
  | splitOutOfRange split rows =>
    "Split point " ++ Nat.repr split ++ " is out of range for " ++ Nat.repr rows ++ " rows"

end Mismatch

/-! ## The log -/

/-- An entry of the log: a sentence with named values. -/
structure Event where
  /-- What happened. -/
  message : String
  /-- The values, by name. -/
  fields : List (String × String)
  deriving DecidableEq, Repr

namespace Event

/-- The level of every entry. -/
def level : String := "DEBUG"

/-- A dense vector has the wrong size. -/
def rejected (expected actual : String) : Event :=
  ⟨"rejected dense vector", [("expected", expected), ("actual", actual)]⟩

/-- Two dynamic parts leave the split open. -/
def noStaticSplit (rows : Nat) : Event :=
  ⟨"no static split between dynamic parts", [("rows", Nat.repr rows)]⟩

/-- The first part was to end past the end. -/
def splitPastEnd (split rows : Nat) : Event :=
  ⟨"split point past the end", [("split", Nat.repr split), ("rows", Nat.repr rows)]⟩

end Event

end BlockVector

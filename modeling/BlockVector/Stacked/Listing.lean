import BlockVector.Number.Text
import BlockVector.Stacked.Basic

/-!
# Listings

The listing of a vector has an entry for each coordinate: its name and its number, from top to
bottom. Its configuration says how many decimal places a number has, what stands between a name and
its number, and what stands between two entries.
-/

namespace BlockVector.Listing

/-- How a listing is written. -/
structure Config where
  /-- Decimal places of a number; as many as it needs when there is no such number. -/
  precision : Option Nat := none
  /-- Between a name and its number. -/
  assignment : String := " = "
  /-- Between two entries. -/
  separator : String := "\n"
  deriving DecidableEq, Repr

namespace Config

/-- One entry to a line, `name = number`. -/
instance : Inhabited Config := ⟨{}⟩

/-- A change of one part of a configuration. -/
inductive Change where
  | precision (places : Nat)
  | assignment (text : String)
  | separator (text : String)
  deriving DecidableEq, Repr

/-- The configuration after a change. -/
def change (c : Config) : Change → Config
  | .precision places => { c with precision := some places }
  | .assignment text => { c with assignment := text }
  | .separator text => { c with separator := text }

/-- The configurations that a row of changes runs through, from `c` on. -/
def steps (c : Config) : List Change → List Config
  | [] => [c]
  | change :: changes => c :: (c.change change).steps changes

/-- The configuration after a row of changes of the default one. -/
def ofChanges (changes : List Change) : Config := changes.foldl change default

/-- The last of the configurations is the one after all the changes. -/
theorem getLast?_steps (c : Config) (changes : List Change) :
    (c.steps changes).getLast? = some (changes.foldl change c) := by
  induction changes generalizing c with
  | nil => rfl
  | cons first rest ih =>
    have hne : (c.change first).steps rest ≠ [] := by cases rest <;> simp [steps]
    rw [steps, List.getLast?_cons, ih, List.foldl_cons, Option.getD_some]

end Config

end BlockVector.Listing

namespace BlockVector.Stacked

variable {f : Format} {F : Family}

/-- The entry of coordinate `index`. -/
def listingEntry (F : Family) (config : Listing.Config) (x : Number f) (index : Nat) :
    Except Failure String := do
  let name ← F.coordinateName index
  let number ← x.textAt config.precision
  return name ++ config.assignment ++ number

/-- The listing of a vector. -/
def listing (config : Listing.Config) (v : Stacked (Number f) F) : Except Failure String := do
  let entries ← v.toDense.zipIdx.mapM fun (x, index) => listingEntry F config x index
  return config.separator.intercalate entries

end BlockVector.Stacked

import BlockVector.Json.Reader
import BlockVector.Json.Writer

/-!
# Functional forms

What is known about the shape of a function: nothing, that it is a polynomial, that it is linear up
to a constant, that it is linear. Each form refines the one before it, so the four are a chain, and
two functions share the less structured of their forms.
-/

namespace BlockVector

/-- What is known about the shape of a function. -/
inductive Form where
  /-- Nothing is known. -/
  | arbitrary
  /-- A polynomial in its arguments. -/
  | polynomial
  /-- Linear but for a constant. -/
  | affine
  /-- Linear in its arguments. -/
  | linear
  deriving DecidableEq, Repr

namespace Form

instance : Inhabited Form := ⟨arbitrary⟩

/-- Every form, the least structured first. -/
def all : List Form := [arbitrary, polynomial, affine, linear]

/-- The place of a form in the chain. -/
def depth : Form → Nat
  | arbitrary => 0
  | polynomial => 1
  | affine => 2
  | linear => 3

/-- A function of the form `a` is also of the form `b`. -/
def refines (a b : Form) : Bool := b.depth ≤ a.depth

/-- The most structured form that both refine: that of a sum of two such functions. -/
def strongestCommon (a b : Form) : Form := if a.refines b then b else a

theorem refines_refl (a : Form) : a.refines a := by cases a <;> rfl

theorem refines_trans {a b c : Form} (hab : a.refines b) (hbc : b.refines c) : a.refines c := by
  simp only [refines, decide_eq_true_eq] at *
  omega

theorem refines_antisymm {a b : Form} (hab : a.refines b) (hba : b.refines a) : a = b := by
  cases a <;> cases b <;> simp_all [refines, depth]

/-- What both forms refine, their strongest common form refines, and nothing else. -/
theorem strongestCommon_refines_iff (a b c : Form) :
    (a.strongestCommon b).refines c ↔ a.refines c ∧ b.refines c := by
  cases a <;> cases b <;> cases c <;> decide

/-! ## The form of a thing that may not tell -/

/-- The form of something that declares `declared`, or declares nothing. -/
def declared (form : Option Form) : Form := form.getD default

/-- What declares `declared`, or declares nothing, has at least the form `form`. -/
def isAtLeast (declared? : Option Form) (form : Form) : Bool := (declared declared?).refines form

/-! ## Text -/

/-- The name of a form in running text. -/
def name : Form → String
  | arbitrary => "arbitrary"
  | polynomial => "polynomial"
  | affine => "affine"
  | linear => "linear"

instance : ToString Form := ⟨name⟩

/-- The form with a given name. -/
def ofName? (s : String) : Option Form := all.find? (·.name = s)

/-- The name of a form as a tag in JSON. -/
def tag : Form → String
  | arbitrary => "Arbitrary"
  | polynomial => "Polynomial"
  | affine => "Affine"
  | linear => "Linear"

/-- A form as a JSON value. -/
def toJson (f : Form) : Json := .ofString f.tag

/-- The form that a JSON value stands for: its tag, or an object with the tag as its one key and the
value `null`. -/
def ofJson? : Json → Option Form
  | .string s => all.find? (some ·.tag = s)
  | .object [(key, .null)] => all.find? (some ·.tag = key)
  | _ => none

/-- The form that a JSON text stands for. -/
def ofText? (s : String) : Option Form := (Json.ofText? s).bind ofJson?

end Form

end BlockVector

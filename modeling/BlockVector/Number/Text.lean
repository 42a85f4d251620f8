import BlockVector.Failure
import BlockVector.Json.Writer
import BlockVector.Number.Basic
import BlockVector.Number.Shortest

/-!
# Numbers as text

In running text a number is written positionally, without an exponent. With a number of decimal
places it is rounded to them, half-way to the even digit; without one it gets the fewest digits that
still name it. The sign of a zero is written, and numbers that are not finite are written as words.

In JSON a finite number is a literal with the fewest digits that name it, positional when its
leading digit stands at a place inside a window and with an exponent outside it. JSON has no word
for the other numbers: they are written as `null`, which is not read as a number. A literal is read
to the nearest number of the format, and refused when that is infinite.
-/

namespace BlockVector.Number

variable {f : Format}

/-! ## Running text -/

/-- No field is wider than this, and no more decimal places can be asked for. -/
def maxField : Nat := 65535

/-- A minus sign for a negative number. -/
def signText (negative : Bool) : List Char := if negative then ['-'] else []

/-- Text of a number; `digits` gives the digits before and after the point of a magnitude. -/
def textWith (digits : Nat → List Char × List Char) : Number f → String
  | nan => "NaN"
  | infinite false => "inf"
  | infinite true => "-inf"
  | finite negative rank => String.ofList (signText negative ++ Decimal.pointed (digits rank))

/-- A number with the fewest digits that name it. -/
def text (x : Number f) : String := x.textWith fun rank => (f.shortest .up rank).positional

/-- The digits of a magnitude, rounded to a number of decimal places. No magnitude needs more places
than the unit of the format does, and from there on there are zeros. -/
def fixedDigits (f : Format) (places rank : Nat) : List Char × List Char :=
  let exact := min places f.unitExponent
  let d : Decimal := ⟨roundNearest .even (f.magnitude rank * 10 ^ exact), -exact⟩
  (d.positional.1, d.positional.2 ++ List.replicate (places - exact) '0')

/-- A number with a given number of decimal places. -/
def textFixed (places : Nat) (x : Number f) : String := x.textWith (fixedDigits f places)

/-- A number with the decimal places asked for, if any are. -/
def textAt (precision : Option Nat) (x : Number f) : Except Failure String :=
  match precision with
  | none => .ok x.text
  | some places =>
    if places ≤ maxField then .ok (x.textFixed places) else .error .fieldOutOfRange

/-! ## Writing JSON -/

/-- The places of the leading digit at which a number is written positionally. -/
structure Window where
  first : Int
  last : Int
  deriving DecidableEq, Repr

/-- A decimal as a literal. Positional notation has at least one digit after the point, notation
with an exponent exactly one before it. -/
def literal (w : Window) (negative : Bool) (d : Decimal) : Json.Literal :=
  if w.first ≤ d.leadingPlace ∧ d.leadingPlace ≤ w.last then
    ⟨negative, d.positional.1, if d.positional.2 = [] then ['0'] else d.positional.2, none⟩
  else ⟨negative, d.digits.take 1, d.digits.drop 1, some d.leadingPlace⟩

/-- A number as a JSON value. -/
def toJson (w : Window) : Number f → Json
  | finite negative rank => .number (literal w negative (f.shortest .even rank))
  | _ => .null

/-! ## Reading JSON -/

/-- An exponent brought into the range outside of which it makes no difference: above, every number
but zero is infinite, and below every number of so many digits is zero. -/
def clampExponent (f : Format) (digits : Nat) (e : Int) : Int :=
  let bound : Int := Nat.pow 2 f.exponentBits + f.precision
  max (-(bound + digits)) (min e bound)

/-- The magnitude that a literal denotes, but for exponents out of range. -/
def literalMagnitude (f : Format) (l : Json.Literal) : Rat :=
  let digits := l.whole ++ l.fraction
  let exponent := l.exponent.getD 0 - l.fraction.length
  (⟨Json.Literal.value digits, clampExponent f digits.length exponent⟩ : Decimal).value

/-- An integer below every 64-bit integer, but with a magnitude that a 64-bit word holds. -/
def isWideNegative (l : Json.Literal) : Bool :=
  l.negative && l.fraction = [] && l.exponent = none
    && 9223372036854775808 < Json.Literal.value l.whole
    && Json.Literal.value l.whole < 18446744073709551616

/-- The number nearest to a literal. Wide negative integers are held in double precision on the way,
and so rounded twice. -/
def ofLiteral (f : Format) (l : Json.Literal) : Number f :=
  if isWideNegative l then
    (round .binary64 true (literalMagnitude .binary64 l)).convert f
  else round f l.negative (literalMagnitude f l)

/-- The finite number that a JSON value stands for. -/
def ofJson? (f : Format) : Json → Option (Number f)
  | .number l => if (ofLiteral f l).isFinite then some (ofLiteral f l) else none
  | _ => none

end BlockVector.Number

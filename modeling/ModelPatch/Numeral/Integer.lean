import ModelPatch.Text.DecimalDigit
import ModelPatch.Text.HexDigit

/-!
# Integers in text

Whole numbers in a manifest may carry a sign, blanks around them and single underscores between
their digits; a hexadecimal number may start with `0x`.

## Main definitions

* `Numeral.digits?`: the digit values of a text of digits and underscores;
* `Numeral.integer?`: the integer that a text spells in base ten or sixteen.
-/

namespace ModelPatch

/-- The base in which a number is written. -/
inductive Base
  /-- Base ten. -/
  | ten
  /-- Base sixteen. -/
  | sixteen
  deriving DecidableEq, Repr

namespace Base

/-- The base as a number. -/
def value : Base → Nat
  | ten => 10
  | sixteen => 16

/-- The value of a digit of the base. -/
def digit? (base : Base) (c : Char) : Option Nat :=
  (hexValue? c).filter (· < base.value)

/-- The most digits that a number of the base may have, if there is a bound. -/
def digitLimit? : Base → Option Nat
  | ten => some 4300
  | sixteen => none

end Base

namespace Numeral

/-- The number with the given digits in the given base, the most significant first. -/
def ofDigits (base : Nat) (digits : List Nat) : Nat :=
  digits.foldl (fun n d => n * base + d) 0

/-- The digit values of a text that consists of digits with single underscores between them. -/
def digits? (base : Base) (cs : List Char) : Option (List Nat) :=
  let runs := cs.splitOn '_'
  if runs.all fun run => !run.isEmpty then runs.flatten.mapM base.digit? else none

/-- The natural number that a text of digits spells, within the limit of the base. -/
def natural? (base : Base) (cs : List Char) : Option Nat :=
  (digits? base cs).bind fun digits =>
    if base.digitLimit?.all (digits.length ≤ ·) then some (ofDigits base.value digits) else none

/-- Whether a number is negative, and the number without its sign. -/
def splitSign : List Char → Bool × List Char
  | '-' :: cs => (true, cs)
  | '+' :: cs => (false, cs)
  | cs => (false, cs)

/-- A hexadecimal number without the leading `0x`, behind which one underscore is allowed. -/
def dropHexMark : List Char → List Char
  | '0' :: 'x' :: '_' :: cs => cs
  | '0' :: 'X' :: '_' :: cs => cs
  | '0' :: 'x' :: cs => cs
  | '0' :: 'X' :: cs => cs
  | cs => cs

/-- The integer that a text spells; `none` if it is no number of the base. -/
def integer? (base : Base) (cs : List Char) : Option Int :=
  let (negative, unsigned) := splitSign (Text.plainNumber cs)
  let body := match base with
    | .ten => unsigned
    | .sixteen => dropHexMark unsigned
  (natural? base body).map fun n => if negative then -(n : Int) else n

end Numeral

end ModelPatch

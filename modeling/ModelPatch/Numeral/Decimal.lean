import ModelPatch.Numeral.Integer

/-!
# Decimal fractions in text

The arguments of a matrix are decimal fractions with an optional exponent, or the words for an
infinity and for what is not a number.

## Main definitions

* `Decimal`: a number as it is written;
* `Decimal.parse?`: the number that a text spells;
* `Decimal.toFloat`: the nearest floating-point number.
-/

namespace ModelPatch

/-- A number as it is written. -/
inductive Decimal
  /-- Not a number. -/
  | nan
  /-- An infinity and its sign. -/
  | infinite (negative : Bool)
  /-- The number `coefficient * 10 ^ exponent`, with a sign. -/
  | finite (negative : Bool) (coefficient : Nat) (exponent : Int)
  deriving DecidableEq, Repr

namespace Decimal

/-! ### Reading -/

/-- Whether `c` is a digit of ASCII. -/
def isDigit (c : Char) : Bool :=
  '0' ≤ c && c ≤ '9'

/-- The number that a text of digits spells. -/
def ofDigits (cs : List Char) : Nat :=
  Numeral.ofDigits 10 (cs.map fun c => c.toNat - 48)

/-- Whether every underscore of a text stands between two digits, where `afterDigit` says whether
a digit stands before the text. -/
def underscoresFit (afterDigit : Bool) : List Char → Bool
  | [] => true
  | '_' :: cs => afterDigit && (cs.head?.any isDigit) && underscoresFit false cs
  | c :: cs => underscoresFit (isDigit c) cs

/-- A text without its underscores, if all of them stand between digits. -/
def dropUnderscores? (cs : List Char) : Option (List Char) :=
  if underscoresFit false cs then some (cs.filter (· ≠ '_')) else none

/-- The exponent that follows the digits of a number: nothing, or an `e` with an integer. -/
def exponent? : List Char → Option Int
  | [] => some 0
  | c :: cs =>
    let (negative, digits) := Numeral.splitSign cs
    if (c = 'e' ∨ c = 'E') ∧ digits ≠ [] ∧ digits.all isDigit then
      some (if negative then -(ofDigits digits : Int) else ofDigits digits)
    else
      none

/-- The number that an unsigned text of digits, a point and an exponent spells. -/
def fraction? (negative : Bool) (cs : List Char) : Option Decimal :=
  let whole := cs.takeWhile isDigit
  let rest := cs.dropWhile isDigit
  let (places, tail) := match rest with
    | '.' :: more => (more.takeWhile isDigit, more.dropWhile isDigit)
    | _ => ([], rest)
  if whole.isEmpty && places.isEmpty then
    none
  else
    (exponent? tail).map fun e => finite negative (ofDigits (whole ++ places)) (e - places.length)

/-- The number that a text spells. -/
def parse? (cs : List Char) : Option Decimal :=
  (dropUnderscores? (Text.plainNumber cs)).bind fun plain =>
    let (negative, unsigned) := Numeral.splitSign plain
    let word := unsigned.map Char.toLower
    if word = "inf".toList ∨ word = "infinity".toList then some (infinite negative)
    else if word = "nan".toList then some nan
    else fraction? negative unsigned

/-! ### Rounding -/

/-- The power of ten that every floating-point number stays below. -/
def ceiling : Int := 310

/-- A power of ten below half of the least positive floating-point number. -/
def floor : Int := -330

/-- The magnitude of `coefficient * 10 ^ exponent`, rounded to the nearest floating-point number.
Numbers that are certainly too large or too small are settled by their length, so that no huge
power of ten has to be formed. -/
def magnitude (coefficient : Nat) (exponent : Int) : Float :=
  let length : Int := (Nat.toDigits 10 coefficient).length
  if coefficient = 0 ∨ length + exponent < floor then 0.0
  else if ceiling < length + exponent then 1.0 / 0.0
  else Float.ofScientific coefficient (exponent < 0) exponent.natAbs

/-- The floating-point number nearest to a number as it is written. -/
def toFloat : Decimal → Float
  | nan => 0.0 / 0.0
  | infinite negative => if negative then -1.0 / 0.0 else 1.0 / 0.0
  | finite negative coefficient exponent =>
    if negative then -(magnitude coefficient exponent) else magnitude coefficient exponent

end Decimal

end ModelPatch

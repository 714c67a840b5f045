import ModelPatch.Numeral.Binary64

/-!
# Fixed-point numbers

The elements of a matrix are stored as 32-bit patterns with sixteen bits behind the point. A number
is scaled by `2 ^ 16` and rounded to the nearest whole number, ties to even; of that, the lowest 32
bits are kept.

## Main definitions

* `MatrixFault`: why a matrix cannot be formed;
* `FixedPoint.roundHalfEven`: a quotient rounded to the nearest whole number;
* `FixedPoint.ofBinary64`: the pattern of a number.
-/

namespace ModelPatch

/-- Why a matrix cannot be formed. -/
inductive MatrixFault
  /-- An argument is no number. -/
  | notANumber (argument : List Char)
  /-- An angle is infinite. -/
  | infiniteAngle
  /-- An element is no number, or too large to be scaled. -/
  | unscalable (element : Binary64)
  deriving DecidableEq, Repr

namespace FixedPoint

/-- The whole number nearest to `n / d`, the even one of two that are equally near. -/
def roundHalfEven (n d : Nat) : Nat :=
  let quotient := n / d
  let rest := n % d
  if 2 * rest < d ∨ (2 * rest = d ∧ quotient % 2 = 0) then quotient else quotient + 1

/-- The magnitude `mantissa * 2 ^ exponent`, scaled by `2 ^ 16` and rounded. -/
def scaledMagnitude (mantissa : Nat) (exponent : Int) : Nat :=
  if 0 ≤ exponent + 16 then
    mantissa <<< (exponent + 16).toNat
  else
    roundHalfEven mantissa (1 <<< (-(exponent + 16)).toNat)

/-- Whether `mantissa * 2 ^ exponent`, scaled by `2 ^ 16`, stays in the range of floating-point
numbers. -/
def isScalable (mantissa : Nat) (exponent : Int) : Bool :=
  exponent + 16 < 0 || mantissa <<< (exponent + 16).toNat < 1 <<< 1024

/-- The 32-bit pattern of a number. -/
def ofBinary64 (x : Binary64) : Except MatrixFault (BitVec 32) :=
  match x with
  | .finite negative mantissa exponent =>
    if isScalable mantissa exponent then
      let magnitude : Int := scaledMagnitude mantissa exponent
      .ok (BitVec.ofInt 32 (if negative then -magnitude else magnitude))
    else
      .error (.unscalable x)
  | x => .error (.unscalable x)

end FixedPoint

end ModelPatch

import ModelPatch.Numeral.Integer
import ModelPatch.Text.Quoted

/-!
# Hexadecimal offsets

Offsets and sizes are written in base sixteen. They are read as integers that must not be
negative, and shown with capital digits behind `0x`.

## Main definitions

* `Hex.parse`: the offset that a text spells;
* `Hex.showNat`, `Hex.showInt`, `Hex.showPadded`: offsets as messages and listings show them.
-/

namespace ModelPatch.Hex

/-- Why a text is no offset. -/
inductive Fault
  /-- The text is no hexadecimal number. -/
  | notANumber (text : List Char)
  /-- The number is below zero. -/
  | negative (text : List Char)
  deriving DecidableEq, Repr

/-- The wording of a fault. -/
def Fault.message : Fault → String
  | notANumber text => "invalid literal for int() with base 16: " ++ Text.quoted text
  | negative text => "negative offset: " ++ String.ofList text

/-- The offset that a text spells. -/
def parse (text : List Char) : Except Fault Nat :=
  match Numeral.integer? .sixteen text with
  | none => .error (.notANumber text)
  | some (.ofNat n) => .ok n
  | some (.negSucc _) => .error (.negative text)

/-! ### Showing offsets -/

/-- The capital hexadecimal digits of `n`, without leading zeros. -/
def digits (n : Nat) : List Char :=
  if n < 16 then [hexDigit n] else digits (n / 16) ++ [hexDigit (n % 16)]

/-- The capital digits of `n`, with leading zeros up to `width`. -/
def padded (width n : Nat) : List Char :=
  let shown := digits n
  List.replicate (width - shown.length) '0' ++ shown

/-- An offset behind `0x`. -/
def showNat (n : Nat) : String :=
  "0x" ++ String.ofList (digits n)

/-- An offset that may be negative, with the sign behind `0x`. -/
def showInt : Int → String
  | .ofNat n => showNat n
  | .negSucc n => "0x-" ++ String.ofList (digits (n + 1))

/-- An offset that may be negative, with zeros up to eight places, one of which is the sign. -/
def showPadded : Int → String
  | .ofNat n => "0x" ++ String.ofList (padded 8 n)
  | .negSucc n => "0x-" ++ String.ofList (padded 7 (n + 1))

end ModelPatch.Hex

import ModelPatch.Bytes.Basic
import ModelPatch.Text.Blank
import ModelPatch.Text.HexDigit

/-!
# Hexadecimal byte strings

Bytes are shown, and written in a manifest, as pairs of hexadecimal digits.

## Main definitions

* `Bytes.hexDigits`: two capital digits for each byte;
* `Bytes.hexRow`: the same, with a space between bytes;
* `Bytes.ofHexDigits?`: the bytes that a text of digit pairs spells.
-/

namespace ModelPatch

namespace Bytes

/-- The two capital digits of a byte, the more significant first. -/
def hexPair (b : UInt8) : List Char :=
  [hexDigit (b.toNat / 16), hexDigit (b.toNat % 16)]

/-- Two capital digits for each byte. -/
def hexDigits (bytes : Bytes) : String :=
  String.ofList (bytes.flatMap hexPair)

/-- Two capital digits for each byte, with a space between bytes. -/
def hexRow (bytes : Bytes) : String :=
  " ".intercalate (bytes.map fun b => String.ofList (hexPair b))

/-- The bytes spelled by pairs of digits. Plain blanks may stand before, between and behind the
pairs but not inside one; any other text spells nothing. -/
def ofHexDigits? : List Char → Option Bytes
  | [] => some []
  | [c] => if isPlainBlank c then some [] else none
  | c :: d :: rest =>
    if isPlainBlank c then
      ofHexDigits? (d :: rest)
    else
      match hexValue? c, hexValue? d with
      | some hi, some lo => (ofHexDigits? rest).map (UInt8.ofNat (16 * hi + lo) :: ·)
      | _, _ => none

end Bytes

end ModelPatch

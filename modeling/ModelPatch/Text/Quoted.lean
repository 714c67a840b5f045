import ModelPatch.Text.Printable

/-!
# Quoted text in messages

A message that repeats a piece of input shows it in quotes, with escapes for the characters that
would not be seen. Single quotes are used unless the text holds single quotes and no double ones.

## Main definitions

* `Text.quoted`: a text in quotes, as messages show it.
-/

namespace ModelPatch.Text

/-- The lower-case hexadecimal digits of `n`, padded with zeros to `width`. -/
def paddedHex (width n : Nat) : List Char :=
  let digits := Nat.toDigits 16 n
  List.replicate (width - digits.length) '0' ++ digits

/-- The quote that surrounds a text. -/
def quoteFor (cs : List Char) : Char :=
  if '\'' ∈ cs ∧ '"' ∉ cs then '"' else '\''

/-- A character of a text that stands between two of `quote`. -/
def escaped (quote c : Char) : List Char :=
  if c = quote ∨ c = '\\' then ['\\', c]
  else if c = '\n' then ['\\', 'n']
  else if c = '\r' then ['\\', 'r']
  else if c = '\t' then ['\\', 't']
  else if isPrintable c then [c]
  else if c.toNat < 0x100 then '\\' :: 'x' :: paddedHex 2 c.toNat
  else if c.toNat < 0x10000 then '\\' :: 'u' :: paddedHex 4 c.toNat
  else '\\' :: 'U' :: paddedHex 8 c.toNat

/-- The text in quotes, with escapes for the quote, the backslash and what cannot be shown. -/
def quoted (cs : List Char) : String :=
  let quote := quoteFor cs
  String.ofList (quote :: cs.flatMap (escaped quote) ++ [quote])

end ModelPatch.Text

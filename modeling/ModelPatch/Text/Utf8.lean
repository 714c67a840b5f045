import ModelPatch.Bytes.Basic

/-!
# UTF-8

Manifests and the names in a trailer are UTF-8, but nothing keeps them from being broken. Decoding
therefore never fails: each longest run of bytes that begins a character and does not go on to
complete it is read as one replacement character, and so is each byte that begins none.

## Main definitions

* `Utf8.encode`: the bytes of a text;
* `Utf8.decode`: the text of any bytes.

## Implementation notes

The lead byte fixes the number of bytes that follow and the range of the first of them, which is
narrower after `E0`, `ED`, `F0` and `F4`: this excludes overlong forms, surrogates and code points
beyond the last one. All further bytes range over `80` to `BF`. Bytes are read one at a time, so
that the run consumed by a broken character ends exactly where the first impossible byte stands.
-/

namespace ModelPatch.Utf8

/-- The character that stands for bytes that encode none. -/
def replacement : Char := '\uFFFD'

/-- The UTF-8 bytes of a text. -/
def encode (cs : List Char) : Bytes :=
  cs.flatMap String.utf8EncodeChar

/-- A character of which a part has been read. -/
structure OpenChar where
  /-- The bits read so far. -/
  bits : Nat
  /-- How many bytes are still to come. -/
  missing : Nat
  /-- The least value that the next byte may have. -/
  least : Nat
  /-- The greatest value that the next byte may have. -/
  greatest : Nat

/-- What a lead byte with the value `b` begins; `none` for a byte that begins no longer
character. -/
def OpenChar.ofLead? (b : Nat) : Option OpenChar :=
  if 0xC2 ≤ b ∧ b ≤ 0xDF then some ⟨b - 0xC0, 1, 0x80, 0xBF⟩
  else if b = 0xE0 then some ⟨0, 2, 0xA0, 0xBF⟩
  else if b = 0xED then some ⟨0xD, 2, 0x80, 0x9F⟩
  else if 0xE1 ≤ b ∧ b ≤ 0xEF then some ⟨b - 0xE0, 2, 0x80, 0xBF⟩
  else if b = 0xF0 then some ⟨0, 3, 0x90, 0xBF⟩
  else if 0xF1 ≤ b ∧ b ≤ 0xF3 then some ⟨b - 0xF0, 3, 0x80, 0xBF⟩
  else if b = 0xF4 then some ⟨4, 3, 0x80, 0x8F⟩
  else none

/-- A byte at the start of a character: the character, if the byte settles one, or what it
begins. -/
def decodeLead (b : Nat) : List Char × Option OpenChar :=
  if b < 0x80 then ([Char.ofNat b], none)
  else match OpenChar.ofLead? b with
    | some p => ([], some p)
    | none => ([replacement], none)

/-- One more byte: the characters that are now settled, and the character that is now open. A
byte that the open character cannot take settles that character as a replacement and is read as a
lead byte. -/
def step (state : Option OpenChar) (b : Nat) : List Char × Option OpenChar :=
  match state with
  | none => decodeLead b
  | some p =>
    if p.least ≤ b ∧ b ≤ p.greatest then
      let bits := p.bits * 64 + b % 64
      if p.missing ≤ 1 then ([Char.ofNat bits], none)
      else ([], some ⟨bits, p.missing - 1, 0x80, 0xBF⟩)
    else
      let (settled, next) := decodeLead b
      (replacement :: settled, next)

/-- Decoding with a character open; one that is still open at the end is a replacement. -/
def decodeFrom (state : Option OpenChar) : Bytes → List Char
  | [] => if state.isSome then [replacement] else []
  | b :: bs =>
    let (settled, next) := step state b.toNat
    settled ++ decodeFrom next bs

/-- The text of any bytes. -/
def decode (bytes : Bytes) : List Char :=
  decodeFrom none bytes

end ModelPatch.Utf8

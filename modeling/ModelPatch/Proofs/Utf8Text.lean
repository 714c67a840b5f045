import Mathlib
import ModelPatch.Text.Utf8

/-!
# Text that is encoded is read back

Decoding reads bytes one at a time and keeps the bits of the character that is still open. For the
bytes of an encoded text it is always between characters or inside one of that text, so it never
comes upon a byte that it cannot take, and no replacement character arises.

The lead byte narrows the range of the byte behind it, and the range depends on the lead byte. What
matters here is only that the next byte of an encoded character lies in it, so `lead_three` and
`lead_four` give the range without naming it.

## Main results

* `Utf8.decodeFrom_encodeChar`: the bytes of one character are read as that character;
* `Utf8.decode_encode`: the bytes of a text are read as that text;
* `Utf8.zero_mem_encode_iff`: the bytes of a text hold a zero only if the text holds a null
  character.
-/

namespace ModelPatch.Utf8

/-! ### Open characters -/

/-- A byte that completes an open character. -/
theorem decodeFrom_last {bits least greatest b : Nat} (rest : Bytes) (hb : b < 256)
    (hleast : least ≤ b) (hgreatest : b ≤ greatest) :
    decodeFrom (some ⟨bits, 1, least, greatest⟩) (UInt8.ofNat b :: rest) =
      Char.ofNat (bits * 64 + b % 64) :: decodeFrom none rest := by
  have hb' : (UInt8.ofNat b).toNat = b := by rw [UInt8.toNat_ofNat', Nat.mod_eq_of_lt hb]
  simp [decodeFrom, step, hb', hleast, hgreatest]

/-- A byte that an open character takes without being completed by it. -/
theorem decodeFrom_more {bits missing least greatest b : Nat} (rest : Bytes) (hb : b < 256)
    (hleast : least ≤ b) (hgreatest : b ≤ greatest) :
    decodeFrom (some ⟨bits, missing + 2, least, greatest⟩) (UInt8.ofNat b :: rest) =
      decodeFrom (some ⟨bits * 64 + b % 64, missing + 1, 0x80, 0xBF⟩) rest := by
  have hb' : (UInt8.ofNat b).toNat = b := by rw [UInt8.toNat_ofNat', Nat.mod_eq_of_lt hb]
  simp [decodeFrom, step, hb', hleast, hgreatest]

/-- A lead byte opens a character. -/
theorem decodeFrom_lead {p : OpenChar} {b : Nat} (rest : Bytes) (hb : b < 256) (hhigh : 0x80 ≤ b)
    (hlead : OpenChar.ofLead? b = some p) :
    decodeFrom none (UInt8.ofNat b :: rest) = decodeFrom (some p) rest := by
  have hb' : (UInt8.ofNat b).toNat = b := by rw [UInt8.toNat_ofNat', Nat.mod_eq_of_lt hb]
  simp [decodeFrom, step, decodeLead, hb', Nat.not_lt.mpr hhigh, hlead]

/-! ### Lead bytes -/

theorem lead_two {n : Nat} (hlow : 0x80 ≤ n) (hhigh : n < 0x800) :
    OpenChar.ofLead? (n / 64 % 32 + 192) = some ⟨n / 64, 1, 0x80, 0xBF⟩ := by
  rw [OpenChar.ofLead?, if_pos (by omega)]
  simp only [Option.some.injEq, OpenChar.mk.injEq, and_true]
  omega

/-- The byte behind the lead byte of three lies in the range that the lead byte allows. -/
theorem lead_three {n : Nat} (hlow : 0x800 ≤ n) (hhigh : n < 0x10000)
    (hscalar : n < 0xD800 ∨ 0xDFFF < n) :
    ∃ least greatest, OpenChar.ofLead? (n / 4096 % 16 + 224) = some ⟨n / 4096, 2, least, greatest⟩ ∧
      least ≤ n / 64 % 64 + 128 ∧ n / 64 % 64 + 128 ≤ greatest := by
  unfold OpenChar.ofLead?
  split_ifs with htwo hE0 hED hrest
  · omega
  · exact ⟨0xA0, 0xBF, by simp; omega, by omega, by omega⟩
  · exact ⟨0x80, 0x9F, by simp; omega, by omega, by omega⟩
  · exact ⟨0x80, 0xBF, by simp; omega, by omega, by omega⟩
  all_goals omega

/-- The byte behind the lead byte of four lies in the range that the lead byte allows. -/
theorem lead_four {n : Nat} (hlow : 0x10000 ≤ n) (hhigh : n < 0x110000) :
    ∃ least greatest,
      OpenChar.ofLead? (n / 262144 % 8 + 240) = some ⟨n / 262144, 3, least, greatest⟩ ∧
      least ≤ n / 4096 % 64 + 128 ∧ n / 4096 % 64 + 128 ≤ greatest := by
  unfold OpenChar.ofLead?
  split_ifs with htwo hE0 hED hthree hF0 hrest hF4
  · omega
  · omega
  · omega
  · omega
  · exact ⟨0x90, 0xBF, by simp; omega, by omega, by omega⟩
  · exact ⟨0x80, 0xBF, by simp; omega, by omega, by omega⟩
  · exact ⟨0x80, 0x8F, by simp; omega, by omega, by omega⟩
  · omega

/-! ### Characters -/

/-- The code point of a character is no surrogate and not beyond the last one. -/
theorem isScalar_toNat (c : Char) :
    (c.toNat < 0xD800 ∨ 0xDFFF < c.toNat) ∧ c.toNat < 0x110000 := by
  rcases c.valid with h | ⟨hlow, hhigh⟩
  · exact ⟨.inl h, Nat.lt_trans h (by decide)⟩
  · exact ⟨.inr hlow, hhigh⟩

/-- **The bytes of a character are read as that character**, one case for each length. -/
theorem decodeFrom_encodeChar (c : Char) (rest : Bytes) :
    decodeFrom none (String.utf8EncodeChar c ++ rest) = c :: decodeFrom none rest := by
  obtain ⟨hscalar, hlast⟩ := isScalar_toNat c
  have hc : Char.ofNat c.toNat = c := Char.ofNat_toNat c
  have hval : c.val.toNat = c.toNat := rfl
  simp only [String.utf8EncodeChar, hval]
  generalize c.toNat = n at *
  split_ifs with hone htwo hthree
  · have hb : (UInt8.ofNat n).toNat = n := by
      rw [UInt8.toNat_ofNat', Nat.mod_eq_of_lt (by omega)]
    simp [decodeFrom, step, decodeLead, hb, Nat.lt_succ_of_le hone, hc]
  · simp only [List.cons_append, List.nil_append]
    have hbits : n / 64 * 64 + (n % 64 + 128) % 64 = n := by omega
    rw [decodeFrom_lead _ (by omega) (by omega) (lead_two (by omega) (by omega)),
      decodeFrom_last _ (by omega) (by omega) (by omega), hbits, hc]
  · obtain ⟨least, greatest, hlead, hleast, hgreatest⟩ :=
      lead_three (n := n) (by omega) (by omega) hscalar
    have hbits : (n / 4096 * 64 + (n / 64 % 64 + 128) % 64) * 64 + (n % 64 + 128) % 64 = n := by
      omega
    simp only [List.cons_append, List.nil_append]
    rw [decodeFrom_lead _ (by omega) (by omega) hlead,
      decodeFrom_more _ (by omega) hleast hgreatest,
      decodeFrom_last _ (by omega) (by omega) (by omega), hbits, hc]
  · obtain ⟨least, greatest, hlead, hleast, hgreatest⟩ := lead_four (n := n) (by omega) hlast
    have hbits : ((n / 262144 * 64 + (n / 4096 % 64 + 128) % 64) * 64 +
        (n / 64 % 64 + 128) % 64) * 64 + (n % 64 + 128) % 64 = n := by
      omega
    simp only [List.cons_append, List.nil_append]
    rw [decodeFrom_lead _ (by omega) (by omega) hlead,
      decodeFrom_more _ (by omega) hleast hgreatest,
      decodeFrom_more _ (by omega) (by omega) (by omega),
      decodeFrom_last _ (by omega) (by omega) (by omega), hbits, hc]

/-! ### Texts -/

theorem encode_cons (c : Char) (cs : List Char) :
    encode (c :: cs) = String.utf8EncodeChar c ++ encode cs :=
  List.flatMap_cons

/-- **The bytes of a text are read as that text.** -/
theorem decode_encode (cs : List Char) : decode (encode cs) = cs := by
  rw [decode]
  induction cs with
  | nil => rfl
  | cons c cs ih => rw [encode_cons, decodeFrom_encodeChar, ih]

theorem zero_mem_encodeChar_iff {c : Char} : 0 ∈ String.utf8EncodeChar c ↔ c = '\x00' := by
  have hzero : ∀ {b : Nat}, b < 256 → ((0 : UInt8) = UInt8.ofNat b ↔ b = 0) := by
    intro b hb
    rw [← UInt8.toNat_inj, UInt8.toNat_ofNat', Nat.mod_eq_of_lt hb]
    exact eq_comm
  have hnull : c = '\x00' ↔ c.toNat = 0 := Char.toNat_inj.symm
  have hval : c.val.toNat = c.toNat := rfl
  simp only [String.utf8EncodeChar, hval, hnull]
  split_ifs with hone htwo hthree
  · rw [List.mem_singleton, hzero (by omega)]
  all_goals
    simp only [List.mem_cons, List.not_mem_nil, or_false]
    repeat rw [hzero (by omega)]
    omega

/-- The bytes of a text hold a zero only if the text holds a null character. -/
theorem zero_mem_encode_iff {cs : List Char} : 0 ∈ encode cs ↔ '\x00' ∈ cs := by
  simp [encode, zero_mem_encodeChar_iff]

end ModelPatch.Utf8

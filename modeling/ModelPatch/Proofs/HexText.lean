import Mathlib
import ModelPatch.Bytes.Hex
import ModelPatch.Proofs.NumberGrammar

/-!
# Hexadecimal text is read back

An offset is written as `0x` and its capital digits, and bytes are written as pairs of capital
digits. Reading is more tolerant than writing: digits are read in either case. So what is shown here
is that spellings are read, and what is written is one of them.

## Main results

* `Hex.parse_showNat`, `Hex.parse_showPadded`: a number that is written is read back;
* `Hex.not_mem_of_parse`: no separator stands in an offset;
* `Hex.isWord_showNat`: a written number is one word;
* `Bytes.ofHexDigits?_of_toUpper`: pairs of digits of either case are read as bytes.
-/

namespace ModelPatch

/-! ### Written numbers -/

namespace Hex

theorem parse_eq_ok_iff {text : List Char} {n : Nat} :
    parse text = .ok n ↔ Numeral.integer? .sixteen text = some (n : Int) := by
  rw [parse]
  split
  · next h => simp [h]
  · next m h => simp [h]
  · next m h => simp [h]

/-- What is no part of a number does not stand in one. -/
theorem not_mem_of_parse {text : List Char} {n : Nat} (h : parse text = .ok n) {c : Char}
    (hc : c.toNat < 128 ∧ isPlainBlank c = false ∧ ¬ Numeral.IsHexPart c) : c ∉ text := fun hmem =>
  hc.2.2 (Numeral.isHexPart_of_integer? (parse_eq_ok_iff.mp h) hmem hc.1 hc.2.1)

/-- Digits are read without a mark in front of them. -/
theorem parse_of_spellsHex {n : Nat} {text : List Char} (h : Numeral.SpellsHex n text) :
    parse text = .ok n := by
  rw [parse_eq_ok_iff, h.integer?_eq]

theorem toList_showNat (n : Nat) : (showNat n).toList = '0' :: 'x' :: digits n := by
  simp [showNat]

/-- Whatever holds of the digits and of the mark in front of them holds of a written number. -/
theorem forall_mem_showNat {p : Char → Prop} (h : ∀ d < 16, p (hexDigit d)) (hx : p 'x') (n : Nat) :
    ∀ c ∈ (showNat n).toList, p c := by
  have hzero : p '0' := h 0 (by decide)
  rw [toList_showNat]
  simpa [hzero, hx] using forall_mem_digits h n

/-- **A number that is written is read back.** -/
theorem parse_showNat (n : Nat) : parse (showNat n).toList = .ok n := by
  rw [parse_eq_ok_iff, toList_showNat, (Numeral.spellsHex_digits n).integer?_mark]

/-- A written number is one word. -/
theorem isWord_showNat (n : Nat) : Text.IsWord (showNat n).toList := by
  have hall : ∀ c ∈ (showNat n).toList, isBlank c = false ∧ c ≠ '/' :=
    forall_mem_showNat (by decide) (by decide) n
  refine ⟨by simp [toList_showNat], fun c hc => (hall c hc).1, fun h => ?_⟩
  exact (hall '/' (h.subset (by simp))).2 rfl

/-! Numbers with zeros in front, up to some width. -/

theorem spellsHex_padded (width n : Nat) : Numeral.SpellsHex n (padded width n) := by
  obtain ⟨zeros, hdigits⟩ := Numeral.spellsHex_digits n
  refine ⟨width - (digits n).length + zeros, ?_⟩
  rw [padded, List.map_append, List.map_replicate, hdigits, ← List.append_assoc,
    List.replicate_add]
  rfl

theorem le_length_padded (width n : Nat) : width ≤ (padded width n).length := by
  rw [padded, List.length_append, List.length_replicate]
  omega

/-- Only capital digits are written. -/
theorem forall_mem_padded {p : Char → Prop} (h : ∀ d < 16, p (hexDigit d)) (width n : Nat) :
    ∀ c ∈ padded width n, p c := by
  intro c hc
  rcases List.mem_append.mp hc with hzero | hdigit
  · rw [(List.mem_replicate.mp hzero).2]
    exact h 0 (by decide)
  · exact forall_mem_digits h n c hdigit

theorem toList_showPadded (n : Nat) : (showPadded n).toList = '0' :: 'x' :: padded 8 n := by
  show ("0x" ++ String.ofList (padded 8 n)).toList = _
  simp

/-- **A padded number is read back.** -/
theorem parse_showPadded (n : Nat) : parse (showPadded n).toList = .ok n := by
  rw [parse_eq_ok_iff, toList_showPadded, (spellsHex_padded 8 n).integer?_mark]

end Hex

/-! ### Bytes -/

/-- The digits of a byte, of either case, are read as the byte. -/
theorem Bytes.ofHexDigits?_pair {b : UInt8} {hi lo : Char}
    (hhi : hexValue? hi = some (b.toNat / 16)) (hlo : hexValue? lo = some (b.toNat % 16))
    (rest : List Char) : ofHexDigits? (hi :: lo :: rest) = (ofHexDigits? rest).map (b :: ·) := by
  have hbyte : UInt8.ofNat (16 * (b.toNat / 16) + b.toNat % 16) = b := by
    rw [Nat.div_add_mod, UInt8.ofNat_toNat]
  rw [ofHexDigits?, if_neg (by simp [(ascii_of_hexValue? hhi).2.1]), hhi, hlo]
  simp only [hbyte]

/-- **Pairs of digits of either case are read as bytes.** -/
theorem Bytes.ofHexDigits?_of_toUpper {bytes : Bytes} {text : List Char}
    (h : text.map Char.toUpper = bytes.hexDigits.toList) : ofHexDigits? text = some bytes := by
  rw [hexDigits, String.toList_ofList] at h
  induction bytes generalizing text with
  | nil =>
    obtain rfl : text = [] := List.map_eq_nil_iff.mp h
    rfl
  | cons b rest ih =>
    rw [List.flatMap_cons, hexPair, List.cons_append, List.cons_append, List.nil_append] at h
    obtain ⟨hi, more, rfl, hhi, h⟩ := List.map_eq_cons_iff.mp h
    obtain ⟨lo, tail, rfl, hlo, htail⟩ := List.map_eq_cons_iff.mp h
    have hb : b.toNat < 256 := b.toNat_lt
    have hupper : hexValue? hi = some (b.toNat / 16) := by
      rw [← hexValue?_toUpper, hhi]
      exact hexValue?_hexDigit (by omega)
    have hlower : hexValue? lo = some (b.toNat % 16) := by
      rw [← hexValue?_toUpper, hlo]
      exact hexValue?_hexDigit (by omega)
    rw [ofHexDigits?_pair hupper hlower, ih htail, Option.map_some]

end ModelPatch

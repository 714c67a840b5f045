import Mathlib
import ModelPatch.Proofs.HexText

/-!
# Which texts are offsets

An offset is a number in base sixteen that is not negative. So zero may have a minus sign, and all
other offsets may have a plus sign at most.

What is refused follows from the grammar of numbers, in which underscores stand between other
characters and there is a digit besides the zero of the mark. The digits of a text are counted for
this: a number has one, or two if the letter of a mark stands in it.

## Main definitions

* `Numeral.HasDigits`: a text with enough digits to be a number;
* `Numeral.IsDigitless`: a text without digits, but for the zero of a mark.

## Main results

* `Numeral.SpellsInteger.hasDigits`: there are enough digits in what spells an integer;
* `Hex.parse_eq_ok_iff_spells`, `Hex.parse_of_neg`: the integers that are not negative are offsets;
* `Hex.offset_grammar`: which texts are offsets, and which are not.
-/

namespace ModelPatch

namespace Numeral

variable {n : Nat} {z : Int} {cs : List Char}

/-! ### How many digits there are -/

/-- How many digits a text has. The zero of a mark counts. -/
def countDigits (cs : List Char) : Nat :=
  cs.countP fun c => (hexValue? c).isSome

theorem countDigits_append (front back : List Char) :
    countDigits (front ++ back) = countDigits front + countDigits back :=
  List.countP_append

theorem countDigits_eq_zero_iff : countDigits cs = 0 ↔ ∀ c ∈ cs, hexValue? c = none := by
  simp [countDigits]

/-- A text has a digit, and another one if it has a mark. -/
structure HasDigits (cs : List Char) : Prop where
  /-- It has a digit, -/
  pos : 0 < countDigits cs
  /-- which is not the zero of a mark. -/
  marked : ∀ x ∈ ['x', 'X'], x ∈ cs → 1 < countDigits cs

theorem HasDigits.append {front back : List Char} (h : HasDigits cs)
    (hout : ∀ x ∈ ['x', 'X'], x ∉ front ++ back) : HasDigits (front ++ (cs ++ back)) := by
  have hle : countDigits cs ≤ countDigits (front ++ (cs ++ back)) := by
    rw [countDigits_append, countDigits_append]
    omega
  refine ⟨h.pos.trans_le hle, fun x hx hmem => (h.marked x hx ?_).trans_le hle⟩
  have hx := hout x hx
  simp only [List.mem_append, not_or] at hx hmem
  simpa [hx] using hmem

theorem HasDigits.cons {c : Char} (h : HasDigits cs) (hc : c ∉ ['x', 'X']) :
    HasDigits (c :: cs) := by
  have hout : ∀ x ∈ ['x', 'X'], x ∉ [c] ++ [] := by
    intro x hx hmem
    rw [List.append_nil, List.mem_singleton] at hmem
    exact hc (hmem ▸ hx)
  simpa using h.append hout

/-- A mark has one digit, and it is known by its letter. -/
theorem IsHexMark.eq_nil_or {mark : List Char} (h : IsHexMark mark) :
    mark = [] ∨ countDigits mark = 1 ∧ ∃ x ∈ ['x', 'X'], x ∈ mark := by
  have hzero : hexValue? '0' = some 0 := rfl
  have hscore : hexValue? '_' = none := rfl
  cases h with
  | absent => exact .inl rfl
  | plain hx => exact .inr ⟨by simp [countDigits, hzero, of_mem_hexMark hx], _, hx, by simp⟩
  | scored hx =>
    exact .inr ⟨by simp [countDigits, hzero, hscore, of_mem_hexMark hx], _, hx, by simp⟩

theorem SpellsUnsigned.hasDigits (h : SpellsUnsigned n cs) : HasDigits cs := by
  obtain ⟨mark, body, rfl, hmark, hbody⟩ := h
  have hpos : 0 < countDigits body := by
    obtain ⟨c, rest, value, rfl, hvalue⟩ := hbody.exists_cons
    simp [countDigits, hvalue]
  rcases hmark.eq_nil_or with rfl | ⟨hone, -⟩
  · refine ⟨hpos, fun x hx hmem => ?_⟩
    exact absurd hmem (hbody.not_mem (of_mem_hexMark hx).1 (of_mem_hexMark hx).2.1)
  · have hmore : 1 < countDigits (mark ++ body) := by
      rw [countDigits_append]
      omega
    exact ⟨by omega, fun _ _ _ => hmore⟩

theorem SpellsInteger.hasDigits (h : SpellsInteger z cs) : HasDigits cs := by
  obtain ⟨before, number, behind, rfl, hblank, h⟩ := h
  have hnumber : HasDigits number := by
    cases h with
    | unsigned h => exact h.hasDigits
    | plus h => exact h.hasDigits.cons (by decide)
    | minus h => exact h.hasDigits.cons (by decide)
  refine hnumber.append fun x hx hmem => ?_
  exact Bool.false_ne_true ((of_mem_hexMark hx).2.2.symm.trans (hblank x hmem))

/-- Besides the zero of a mark, there is a digit. -/
theorem HasDigits.exists_mem {front mark back : List Char}
    (h : HasDigits (front ++ (mark ++ back))) (hmark : IsHexMark mark) :
    ∃ c ∈ front ++ back, hexValue? c ≠ none := by
  by_contra hnone
  simp only [not_exists, not_and, ne_eq, not_not] at hnone
  -- All digits are in the mark then: it has one at most, but its letter asks for two.
  have hsplit : countDigits (front ++ (mark ++ back)) = countDigits mark := by
    have hzero : countDigits (front ++ back) = 0 := countDigits_eq_zero_iff.mpr hnone
    rw [countDigits_append] at hzero
    rw [countDigits_append, countDigits_append]
    omega
  rcases hmark.eq_nil_or with rfl | ⟨hone, x, hx, hmem⟩
  · have hpos := h.pos
    rw [hsplit] at hpos
    exact absurd hpos (by decide)
  · have hmore := h.marked x hx (by simp [hmem])
    omega

/-- A text without digits of any script, but for the zero of a mark. -/
def IsDigitless (text : List Char) : Prop :=
  ∃ front mark back, text = front ++ (mark ++ back) ∧ IsHexMark mark ∧
    ∀ c ∈ front ++ back, hexValue? (Text.plainNumberChar c) = none

theorem IsDigitless.not_hasDigits (h : IsDigitless cs) :
    ¬ HasDigits (cs.map Text.plainNumberChar) := by
  obtain ⟨front, mark, back, rfl, hmark, hnone⟩ := h
  have hplain : mark.map Text.plainNumberChar = mark :=
    Text.map_plainNumberChar_eq_self fun c hc => (ascii_of_isHexPart (hmark.isHexPart c hc)).1
  intro hdigits
  rw [List.map_append, List.map_append, hplain] at hdigits
  obtain ⟨d, hd, hdigit⟩ := hdigits.exists_mem hmark
  rw [← List.map_append] at hd
  obtain ⟨c, hc, rfl⟩ := List.mem_map.mp hd
  exact hdigit (hnone c hc)

end Numeral

/-! ### Offsets -/

namespace Hex

open Numeral (SpellsInteger)

variable {text : List Char} {n : Nat} {z : Int}

/-- **Offsets are the integers that are not negative.** -/
theorem parse_eq_ok_iff_spells :
    parse text = .ok n ↔ SpellsInteger n (text.map Text.plainNumberChar) := by
  rw [parse_eq_ok_iff, Numeral.integer?_sixteen_eq_some_iff]

theorem parse_of_neg (h : SpellsInteger z (text.map Text.plainNumberChar)) (hz : z < 0) :
    parse text = .error (.negative text) := by
  obtain ⟨k, rfl⟩ := Int.eq_negSucc_of_lt_zero hz
  rw [parse, Numeral.integer?_sixteen_eq_some_iff.mpr h]

theorem parse_of_forall_not_spells (h : ∀ z, ¬ SpellsInteger z (text.map Text.plainNumberChar)) :
    parse text = .error (.notANumber text) := by
  have hnone : Numeral.integer? .sixteen text = none := by
    rw [Option.eq_none_iff_forall_ne_some]
    intro z hz
    exact h z (Numeral.integer?_sixteen_eq_some_iff.mp hz)
  rw [parse, hnone]

/-- Only one integer is spelled by a text. -/
theorem spellsInteger_iff_of_parse (h : parse text = .ok n) :
    SpellsInteger z (text.map Text.plainNumberChar) ↔ z = n := by
  rw [parse_eq_ok_iff] at h
  rw [← Numeral.integer?_sixteen_eq_some_iff, h, Option.some.injEq, eq_comm]

/-- What is no spelling for lack of digits or for its underscores. -/
theorem parse_of_malformed
    (h : Numeral.IsDigitless text ∨ text.head? = some '_' ∨ text.getLast? = some '_' ∨
      ['_', '_'] <:+: text) : parse text = .error (.notANumber text) := by
  refine parse_of_forall_not_spells fun z hz => ?_
  have hscore : Text.plainNumberChar '_' = '_' := rfl
  rcases h with hdigits | hhead | hlast | hpair
  · exact hdigits.not_hasDigits hz.hasDigits
  · exact hz.scores.head (by rw [List.head?_map, hhead]; rfl)
  · exact hz.scores.last (by rw [List.getLast?_map, hlast]; rfl)
  · exact hz.scores.single (hpair.map Text.plainNumberChar)

/-- **Which texts are offsets.** Every spelling of a natural number is read as the number: its
digits may be in either case and have zeros in front, and blanks, a plus sign, a mark and single
underscores may be added. The value of a text that is read is the one integer that it spells, so it
is not negative, and its canonical spelling is read as the same value. A text that spells a negative
integer is refused, and so is one that has no digits but the zero of a mark, that begins or ends
with an underscore or that has two underscores in a row. -/
theorem offset_grammar (text : List Char) :
    (∀ n : Nat, SpellsInteger n text → parse text = .ok n) ∧
    (∀ n : Nat, parse text = .ok n →
      (∀ z, SpellsInteger z (text.map Text.plainNumberChar) ↔ z = n) ∧
        parse (showNat n).toList = .ok n ∧ parse ('0' :: 'x' :: Nat.toDigits 16 n) = .ok n) ∧
    (∀ z < 0, SpellsInteger z (text.map Text.plainNumberChar) →
      parse text = .error (.negative text)) ∧
    (Numeral.IsDigitless text ∨ text.head? = some '_' ∨ text.getLast? = some '_' ∨
        ['_', '_'] <:+: text →
      parse text = .error (.notANumber text)) := by
  refine ⟨fun n hn => ?_, fun n hn => ⟨fun z => spellsInteger_iff_of_parse hn, ?_, ?_⟩,
    fun z hz h => parse_of_neg h hz, parse_of_malformed⟩
  · rwa [parse_eq_ok_iff_spells, hn.map_plainNumberChar]
  · exact parse_showNat n
  · rw [parse_eq_ok_iff, (Numeral.spellsHex_toDigits n).integer?_mark]

/-- A number with everything that may be added to it, a zero with a minus sign, a number in digits
of another script, a negative number, a mark alone and two underscores in a row. -/
theorem offset_grammar_rough :
    parse "\t+0X_00_1f ".toList = .ok 0x1F ∧ parse "-0".toList = .ok 0 ∧
      (parse "٣f".toList = .ok 0x3F ∧ parse (showNat 0x3F).toList = .ok 0x3F) ∧
      parse "-1".toList = .error (.negative "-1".toList) ∧
      parse " 0x ".toList = .error (.notANumber " 0x ".toList) ∧
      parse "1__2".toList = .error (.notANumber "1__2".toList) := by
  have hblank : ∀ c ∈ ['\t', ' '], isPlainBlank c = true := by simp [isPlainBlank]
  have hgrouped : Numeral.SpellsGrouped 0x1F "00_1f".toList :=
    ⟨⟨2, by decide +kernel⟩, by decide, by decide, by decide⟩
  have hletter : 'X' ∈ ['x', 'X'] := by decide
  have hadded : SpellsInteger (0x1F : Nat) "\t+0X_00_1f ".toList :=
    ⟨['\t'], _, [' '], rfl, hblank, .plus ⟨_, _, rfl, .scored hletter, hgrouped⟩⟩
  have hzero : SpellsInteger (0 : Nat) "-0".toList := by
    have hdigit : Numeral.SpellsGrouped 0 ['0'] :=
      ⟨⟨0, by decide +kernel⟩, by decide, by decide, by decide⟩
    exact ⟨[], _, [], rfl, by simp, .minus ⟨[], _, rfl, .absent, hdigit⟩⟩
  have hone : SpellsInteger (-(1 : Nat)) ("-1".toList.map Text.plainNumberChar) := by
    have hdigit : Numeral.SpellsGrouped 1 ['1'] :=
      ⟨⟨0, by decide +kernel⟩, by decide, by decide, by decide⟩
    exact ⟨[], ['-', '1'], [], rfl, by simp, .minus ⟨[], _, rfl, .absent, hdigit⟩⟩
  have hscript : parse "٣f".toList = .ok 0x3F := by decide +kernel
  refine ⟨(offset_grammar _).1 _ hadded, (offset_grammar _).1 _ hzero,
    ⟨hscript, ((offset_grammar _).2.1 _ hscript).2.1⟩,
    (offset_grammar _).2.2.1 _ (by decide) hone, (offset_grammar _).2.2.2 (.inl ?_),
    (offset_grammar _).2.2.2 (.inr (.inr (.inr ⟨['1'], ['2'], rfl⟩)))⟩
  exact ⟨[' '], ['0', 'x'], [' '], rfl, .plain (by decide),
    by simp [Text.plainNumberChar, hexValue?]⟩

end Hex

end ModelPatch

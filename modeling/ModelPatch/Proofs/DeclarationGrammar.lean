import Mathlib
import ModelPatch.Manifest.Pool
import ModelPatch.Proofs.HexText

/-!
# Which texts declare a pool

Without its blanks, a declaration is an offset, an equals sign, a base, a comma and a size. The
offset may be left out. The base is read in any case, also where it is not used, so that a bad base
is refused behind a good offset.

A declaration is cut at its first equals sign and at the first comma behind it. The parts are
numbers, and no number holds either of the two. So there is only one way to cut a text that is
accepted, and separators that are missing, doubled or in the wrong order leave a part that is no
number.

## Main definitions

* `Region.Spells`: a text without blanks that declares an offset and a size.

## Main results

* `Segment.withoutTag_eq`: what becomes of an offset that may be an address;
* `Region.ofContent?_eq_some_iff`: a region is read from the texts that declare it;
* `Region.declaration_grammar`: so the texts that declare none are refused, and an offset in the
  segment can be declared in three ways.
-/

namespace ModelPatch

/-- The highest byte of an address is the number of its segment, and the three others are the
offset. -/
theorem Segment.withoutTag_eq (n : Nat) :
    withoutTag n = if n >>> 24 = 6 then n &&& 0xFFFFFF else n := by
  have hoffset : n &&& 0xFFFFFF = offset n := Nat.and_two_pow_sub_one_eq_mod n 24
  rw [hoffset, Nat.shiftRight_eq_div_pow]
  rfl

theorem Segment.withoutTag_of_lt {n : Nat} (h : n < size) : withoutTag n = n := by
  rw [withoutTag, Nat.div_eq_of_lt h, if_neg (by decide)]

theorem Segment.withoutTag_address {offset : Nat} (h : offset < size) :
    withoutTag (id * size + offset) = offset := by
  have hid : (id * size + offset) / size = id := by
    rw [Nat.mul_comm, Nat.mul_add_div (by decide), Nat.div_eq_of_lt h, Nat.add_zero]
  rw [withoutTag, if_pos hid, Segment.offset, Nat.mul_comm, Nat.mul_add_mod, Nat.mod_eq_of_lt h]

/-! ### Numbers in text -/

namespace Hex

variable {text : List Char} {n : Nat}

theorem toOption_parse_eq_some_iff : (parse text).toOption = some n ↔ parse text = .ok n := by
  cases parse text <;> simp [Except.toOption]

theorem ne_nil_of_parse (h : parse text = .ok n) : text ≠ [] := by
  rintro rfl
  cases h

end Hex

namespace Numeral

/-- Six digits behind the number of the segment are an address. -/
theorem SpellsHex.parse_address {offset : Nat} {digits : List Char} (h : SpellsHex offset digits)
    (hlength : digits.length = 6) :
    Hex.parse ('0' :: '6' :: digits) = .ok (Segment.id * Segment.size + offset) := by
  obtain ⟨values, hvalues, hoffset⟩ := h.ofDigits
  have hread : ('0' :: '6' :: digits).mapM Base.sixteen.digit? = some ([0, 6] ++ values) :=
    mapM_eq_some_iff.mpr (.cons rfl (.cons rfl (mapM_eq_some_iff.mp hvalues)))
  have hcount : values.length = 6 := (mapM_eq_some_iff.mp hvalues).length_eq.symm.trans hlength
  have hspells : SpellsHex (Numeral.ofDigits 16 ([0, 6] ++ values)) ('0' :: '6' :: digits) :=
    spellsHex_of_mapM (by simp) hread
  rw [Hex.parse_of_spellsHex hspells, ofDigits_append, hcount, hoffset]
  rfl

end Numeral

/-! ### Declarations -/

namespace Region

variable {content text : List Char} {location : Option Location} {region : Region}

/-- A text without blanks that declares an offset and a size. The offset may still have the number
of the segment in front. -/
inductive Spells : List Char → Nat → Nat → Prop
  /-- The base stands in for an offset that is left out. -/
  | base {middle right : List Char} {base size : Nat} (hbase : Hex.parse middle = .ok base)
      (hsize : Hex.parse right = .ok size) : Spells ('=' :: (middle ++ ',' :: right)) base size
  /-- The base is not used, but has to be a number. -/
  | offset {left middle right : List Char} {offset base size : Nat}
      (hoffset : Hex.parse left = .ok offset) (hbase : Hex.parse middle = .ok base)
      (hsize : Hex.parse right = .ok size) :
      Spells (left ++ '=' :: (middle ++ ',' :: right)) offset size

theorem equals_not_mem_of_parse {n : Nat} (h : Hex.parse text = .ok n) : '=' ∉ text :=
  Hex.not_mem_of_parse h (by decide)

theorem comma_not_mem_of_parse {n : Nat} (h : Hex.parse text = .ok n) : ',' ∉ text :=
  Hex.not_mem_of_parse h (by decide)

/-- **A region is read from the texts that declare it.** -/
theorem ofContent?_eq_some_iff :
    ofContent? content = some region ↔ ∃ offset size,
      Spells (Text.dropBlanks content) offset size ∧
        region = ⟨Segment.withoutTag offset, size⟩ := by
  simp only [ofContent?, Option.bind_eq_bind, Option.bind_eq_some_iff, Prod.exists,
    cutAt_eq_some_iff, Option.pure_def, Hex.toOption_parse_eq_some_iff]
  constructor
  · rintro ⟨left, rest, ⟨hcontent, -⟩, middle, right, ⟨rfl, -⟩, base, hbase, size, hsize, hoffset⟩
    rw [hcontent]
    cases left with
    | nil =>
      rw [if_pos List.isEmpty_nil, Option.bind_some, Option.some.injEq] at hoffset
      exact ⟨base, size, .base hbase hsize, hoffset.symm⟩
    | cons c left =>
      rw [if_neg (by simp), Option.bind_eq_some_iff] at hoffset
      obtain ⟨offset, hleft, hregion⟩ := hoffset
      have hleft : Hex.parse (c :: left) = .ok offset := Hex.toOption_parse_eq_some_iff.mp hleft
      exact ⟨offset, size, .offset hleft hbase hsize, (Option.some.inj hregion).symm⟩
  · -- No number holds a separator, so the text is cut where it was put together.
    rintro ⟨offset, size, hspells, rfl⟩
    generalize Text.dropBlanks content = text at hspells
    cases hspells with
    | base hbase hsize =>
      exact ⟨[], _, ⟨rfl, by simp⟩, _, _, ⟨rfl, comma_not_mem_of_parse hbase⟩, _, hbase, _, hsize,
        rfl⟩
    | offset hoffset hbase hsize =>
      refine ⟨_, _, ⟨rfl, equals_not_mem_of_parse hoffset⟩, _, _,
        ⟨rfl, comma_not_mem_of_parse hbase⟩, _, hbase, _, hsize, ?_⟩
      rw [if_neg (by simp [Hex.ne_nil_of_parse hoffset]), hoffset]
      rfl

theorem result_parse_eq_ok_iff :
    (parse location content).result = .ok region ↔ ofContent? content = some region := by
  rw [parse]
  cases ofContent? content <;> simp [eq_comm]

/-- **Which texts declare a pool.** Without its blanks, the text is an offset that may be left out,
an equals sign, a base, a comma and a size, and all of these are numbers. The region starts at the
offset, or at the base if there is none, of which only the three lower bytes count if the highest
one is the number of the segment. Any other text is refused at its location. So an offset in the
segment can be given behind the equals sign, with or without the number of the segment in front of
its six digits, or before the equals sign, whatever the base is then. -/
theorem declaration_grammar (location : Option Location) (content : List Char) :
    (∀ region, (parse location content).result = .ok region ↔
      ∃ offset size, Spells (Text.dropBlanks content) offset size ∧
        region = ⟨if offset >>> 24 = 6 then offset &&& 0xFFFFFF else offset, size⟩) ∧
    ((¬ ∃ offset size, Spells (Text.dropBlanks content) offset size) →
      (parse location content).result =
        .error (.refused ⟨.malformed .poolDeclaration, location⟩)) ∧
    ∀ (s : List Char) (offset size : Nat), offset < 2 ^ 24 → Hex.parse s = .ok size →
      ((∃ o, Hex.parse o = .ok offset ∧ Text.dropBlanks content = '=' :: (o ++ ',' :: s)) ∨
        (∃ digits, Numeral.SpellsHex offset digits ∧ digits.length = 6 ∧
          Text.dropBlanks content = '=' :: '0' :: '6' :: (digits ++ ',' :: s)) ∨
        ∃ o b base, Hex.parse o = .ok offset ∧ Hex.parse b = .ok base ∧
          Text.dropBlanks content = o ++ '=' :: (b ++ ',' :: s)) →
      (parse location content).result = .ok ⟨offset, size⟩ := by
  refine ⟨fun region => ?_, fun hnone => ?_, ?_⟩
  · rw [result_parse_eq_ok_iff, ofContent?_eq_some_iff]
    simp only [Segment.withoutTag_eq]
  · have hcontent : ofContent? content = none := by
      rw [Option.eq_none_iff_forall_ne_some]
      intro region hregion
      obtain ⟨offset, size, hspells, -⟩ := ofContent?_eq_some_iff.mp hregion
      exact hnone ⟨offset, size, hspells⟩
    rw [parse, hcontent]
    rfl
  · intro s offset size hlt hs hspelled
    rw [result_parse_eq_ok_iff, ofContent?_eq_some_iff]
    rcases hspelled with ⟨o, ho, htext⟩ | ⟨digits, hdigits, hlength, htext⟩ |
      ⟨o, b, base, ho, hb, htext⟩
    · exact ⟨offset, size, htext ▸ .base ho hs, by rw [Segment.withoutTag_of_lt hlt]⟩
    · refine ⟨_, size, htext ▸ Spells.base (hdigits.parse_address hlength) hs, ?_⟩
      rw [Segment.withoutTag_address hlt]
    · exact ⟨offset, size, htext ▸ .offset ho hb hs, by rw [Segment.withoutTag_of_lt hlt]⟩

/-- One offset in three ways. Behind the offset the base may be any number, but there has to be
one. -/
theorem declaration_grammar_three_ways :
    (parse none " = 5090 , 800".toList).result = .ok ⟨0x5090, 0x800⟩ ∧
      (parse none "=06005090,800".toList).result = .ok ⟨0x5090, 0x800⟩ ∧
      (parse none "5090=FF,800".toList).result = .ok ⟨0x5090, 0x800⟩ ∧
      (parse none "5090=,800".toList).result =
        .error (.refused ⟨.malformed .poolDeclaration, none⟩) := by
  have hoffset : Hex.parse "5090".toList = .ok 0x5090 := by decide +kernel
  have hsize : Hex.parse "800".toList = .ok 0x800 := by decide +kernel
  have hbase : Hex.parse "FF".toList = .ok 0xFF := by decide +kernel
  have hdigits : Numeral.SpellsHex 0x5090 "005090".toList := ⟨2, by decide +kernel⟩
  refine ⟨?_, ?_, ?_, ?_⟩
  · exact (declaration_grammar none " = 5090 , 800".toList).2.2 "800".toList 0x5090 0x800
      (by decide) hsize (.inl ⟨"5090".toList, hoffset, by decide +kernel⟩)
  · exact (declaration_grammar none "=06005090,800".toList).2.2 "800".toList 0x5090 0x800
      (by decide) hsize (.inr (.inl ⟨"005090".toList, hdigits, rfl, by decide +kernel⟩))
  · exact (declaration_grammar none "5090=FF,800".toList).2.2 "800".toList 0x5090 0x800
      (by decide) hsize
      (.inr (.inr ⟨"5090".toList, "FF".toList, 0xFF, hoffset, hbase, by decide +kernel⟩))
  · refine (declaration_grammar none "5090=,800".toList).2.1 ?_
    rintro ⟨offset, size, hspells⟩
    have hread := ofContent?_eq_some_iff.mpr ⟨offset, size, hspells, rfl⟩
    have hnone : ofContent? "5090=,800".toList = none := by decide +kernel
    rw [hnone] at hread
    cases hread

end Region

end ModelPatch

import Mathlib
import ModelPatch.Patch
import ModelPatch.Proofs.Utf8Text

/-!
# Manifests as text and as bytes

A manifest may be given as text or as bytes, and both are read alike: decoding undoes the encoding,
so from there on nothing differs. Bytes that encode no text are read too. `Utf8.Reads` says what
they are read as, in terms of the encoding alone: wherever no character can be read, the maximal
subpart that stands there is read as one replacement character.

## Main definitions

* `Utf8.Starts`: bytes that stand at the start of the encoding of a character;
* `Utf8.IsMaximalSubpart`: the bytes that one replacement character stands for;
* `Utf8.Reads`: what bytes are read as.

## Main results

* `Utf8.decode_eq_iff_reads`: decoding is that reading;
* `Manifest.text_and_bytes_agree`: a text and its bytes make the same manifest and the same patch.

## Implementation notes

The decoder knows ranges of bytes and counts them; `Utf8.Reads` knows neither. `Utf8.Opens` is what
joins them: it says which bytes complete the open character, but not which character they make.
That no other byte completes it then follows from the decoder itself, as the encoding of a character
is read as one character and a refused byte leaves at least two.
-/

namespace ModelPatch

namespace Utf8

/-! ### The reading of any bytes -/

/-- Bytes that stand at the start of the encoding of a character. -/
def Starts (part : Bytes) : Prop :=
  ∃ c, part <+: String.utf8EncodeChar c

/-- `part` is the maximal subpart at a place where no character can be read, with `rest` behind it:
the longest bytes there that start a character, or one byte where there are none. -/
structure IsMaximalSubpart (part rest : Bytes) : Prop where
  unreadable : ∀ c, ¬ String.utf8EncodeChar c <+: part ++ rest
  ne_nil : part ≠ []
  starts_or_single : Starts part ∨ part.length = 1
  maximal : ∀ other, other <+: part ++ rest → Starts other → other.length ≤ part.length

/-- What bytes are read as: characters, and a replacement for each maximal subpart. -/
inductive Reads : Bytes → List Char → Prop
  | nil : Reads [] []
  | char (c : Char) {rest : Bytes} {cs : List Char} :
      Reads rest cs → Reads (String.utf8EncodeChar c ++ rest) (c :: cs)
  | broken {part rest : Bytes} {cs : List Char} :
      IsMaximalSubpart part rest → Reads rest cs → Reads (part ++ rest) (replacement :: cs)

variable {bytes part rest : Bytes} {cs : List Char} {p : OpenChar} {b : UInt8}

theorem Starts.of_prefix {longer : Bytes} (h : Starts longer) (hpart : part <+: longer) :
    Starts part := by
  obtain ⟨c, hc⟩ := h
  exact ⟨c, hpart.trans hc⟩

/-! ### How much is decoded -/

theorem decodeFrom_some_ne_nil (p : OpenChar) (bytes : Bytes) : decodeFrom (some p) bytes ≠ [] := by
  induction bytes generalizing p with
  | nil => simp [decodeFrom]
  | cons b bs ih =>
    simp only [decodeFrom, step]
    split_ifs
    · simp
    · simpa using ih _
    · simp

theorem decodeFrom_none_eq_nil_iff : decodeFrom none bytes = [] ↔ bytes = [] := by
  cases bytes with
  | nil => simp [decodeFrom]
  | cons b bs =>
    simp only [decodeFrom, step, decodeLead, reduceCtorEq, iff_false]
    split_ifs
    · simp
    · split
      · simpa using decodeFrom_some_ne_nil _ bs
      · simp

/-- A byte that the open character refuses is read as if that character had ended. -/
theorem decodeFrom_refused (hb : ¬ (p.least ≤ b.toNat ∧ b.toNat ≤ p.greatest)) :
    decodeFrom (some p) (b :: rest) = replacement :: decodeFrom none (b :: rest) := by
  simp [decodeFrom, step, hb]

/-- A byte from `80` up that no longer character begins with is read as a replacement. -/
theorem decodeFrom_unreadable (hhigh : ¬ b.toNat < 0x80)
    (hlead : OpenChar.ofLead? b.toNat = none) :
    decodeFrom none (b :: rest) = replacement :: decodeFrom none rest := by
  simp [decodeFrom, step, decodeLead, hhigh, hlead]

/-- No encoding of a character begins with that of another, and none has anything behind it. -/
theorem eq_nil_of_encodeChar_append {c d : Char}
    (h : String.utf8EncodeChar c ++ rest = String.utf8EncodeChar d) : rest = [] := by
  have hread := congrArg (decodeFrom none) (h.trans (List.append_nil _).symm)
  rw [decodeFrom_encodeChar, decodeFrom_encodeChar, List.cons.injEq] at hread
  exact decodeFrom_none_eq_nil_iff.mp hread.2

theorem encodeChar_ne_nil (c : Char) : String.utf8EncodeChar c ≠ [] := by
  intro h
  have hread := decodeFrom_encodeChar c []
  rw [h] at hread
  simp [decodeFrom] at hread

/-! ### Bytes that make a character

One lemma for each length. The narrower range behind `E0`, `ED`, `F0` and `F4` is what keeps the
number in the range of that length, or away from the surrogates. -/

/-- A number that is no surrogate and not beyond the last code point is that of a character. -/
theorem exists_toNat_eq {n : Nat} (hscalar : n < 0xD800 ∨ 0xDFFF < n) (hlast : n < 0x110000) :
    ∃ c : Char, c.val.toNat = n := by
  have hvalid : n.isValidChar := hscalar.imp_right fun h => ⟨h, hlast⟩
  exact ⟨Char.ofNat n, (Char.toNat_ofNat n).trans (if_pos hvalid)⟩

theorem exists_encodeChar_one (hb : b.toNat < 0x80) : ∃ c, String.utf8EncodeChar c = [b] := by
  obtain ⟨c, hc⟩ := exists_toNat_eq (n := b.toNat) (by omega) (by omega)
  refine ⟨c, ?_⟩
  rw [String.utf8EncodeChar, hc, if_pos (by omega), UInt8.ofNat_toNat]

variable {x y z : UInt8}

/-- What the bytes after the first range over, but for the one behind some lead bytes. -/
def IsTail (x : UInt8) : Prop :=
  0x80 ≤ x.toNat ∧ x.toNat ≤ 0xBF

theorem exists_encodeChar_two (hb : 0xC2 ≤ b.toNat ∧ b.toNat ≤ 0xDF) (hx : IsTail x) :
    ∃ c, String.utf8EncodeChar c = [b, x] := by
  obtain ⟨hxlow, hxhigh⟩ := hx
  obtain ⟨c, hc⟩ :=
    exists_toNat_eq (n := (b.toNat - 0xC0) * 64 + (x.toNat - 0x80)) (by omega) (by omega)
  refine ⟨c, ?_⟩
  simp only [String.utf8EncodeChar, hc]
  rw [if_neg (by omega), if_pos (by omega)]
  simp only [List.cons.injEq, and_true, ← UInt8.toNat_inj, UInt8.toNat_ofNat']
  omega

theorem exists_encodeChar_three (hb : 0xE0 ≤ b.toNat ∧ b.toNat ≤ 0xEF) (hx : IsTail x)
    (hy : IsTail y) (hlow : b.toNat = 0xE0 → 0xA0 ≤ x.toNat)
    (hsurrogate : b.toNat = 0xED → x.toNat ≤ 0x9F) : ∃ c, String.utf8EncodeChar c = [b, x, y] := by
  obtain ⟨hxlow, hxhigh⟩ := hx
  obtain ⟨hylow, hyhigh⟩ := hy
  obtain ⟨c, hc⟩ := exists_toNat_eq
    (n := ((b.toNat - 0xE0) * 64 + (x.toNat - 0x80)) * 64 + (y.toNat - 0x80)) (by omega) (by omega)
  refine ⟨c, ?_⟩
  simp only [String.utf8EncodeChar, hc]
  rw [if_neg (by omega), if_neg (by omega), if_pos (by omega)]
  simp only [List.cons.injEq, and_true, ← UInt8.toNat_inj, UInt8.toNat_ofNat']
  omega

theorem exists_encodeChar_four (hb : 0xF0 ≤ b.toNat ∧ b.toNat ≤ 0xF4) (hx : IsTail x)
    (hy : IsTail y) (hz : IsTail z) (hlow : b.toNat = 0xF0 → 0x90 ≤ x.toNat)
    (hhigh : b.toNat = 0xF4 → x.toNat ≤ 0x8F) : ∃ c, String.utf8EncodeChar c = [b, x, y, z] := by
  obtain ⟨hxlow, hxhigh⟩ := hx
  obtain ⟨hylow, hyhigh⟩ := hy
  obtain ⟨hzlow, hzhigh⟩ := hz
  obtain ⟨c, hc⟩ := exists_toNat_eq
    (n := (((b.toNat - 0xF0) * 64 + (x.toNat - 0x80)) * 64 + (y.toNat - 0x80)) * 64 +
      (z.toNat - 0x80)) (by omega) (by omega)
  refine ⟨c, ?_⟩
  simp only [String.utf8EncodeChar, hc]
  rw [if_neg (by omega), if_neg (by omega), if_neg (by omega)]
  simp only [List.cons.injEq, and_true, ← UInt8.toNat_inj, UInt8.toNat_ofNat']
  omega

/-! ### Open characters -/

/-- What the next byte of an open character ranges over lies within the range of all tails. -/
structure OpenChar.InRange (p : OpenChar) : Prop where
  le_least : 0x80 ≤ p.least
  least_le : p.least ≤ p.greatest
  greatest_le : p.greatest ≤ 0xBF

/-- What a lead byte says of the bytes behind it: how many they are, and which one may be next. -/
theorem ofLead?_eq_some {n : Nat} (h : OpenChar.ofLead? n = some p) :
    p.InRange ∧
      (p.missing = 1 ∧ (0xC2 ≤ n ∧ n ≤ 0xDF) ∨
        p.missing = 2 ∧ (0xE0 ≤ n ∧ n ≤ 0xEF) ∧
          (n = 0xE0 → 0xA0 ≤ p.least) ∧ (n = 0xED → p.greatest ≤ 0x9F) ∨
        p.missing = 3 ∧ (0xF0 ≤ n ∧ n ≤ 0xF4) ∧
          (n = 0xF0 → 0x90 ≤ p.least) ∧ (n = 0xF4 → p.greatest ≤ 0x8F)) := by
  unfold OpenChar.ofLead? at h
  split_ifs at h with htwo hE0 hED hthree hF0 hfour hF4 <;> obtain rfl := Option.some.inj h <;>
    refine ⟨⟨by simp, by simp, by simp⟩, ?_⟩
  · exact .inl ⟨rfl, htwo⟩
  · exact .inr (.inl ⟨rfl, by omega, fun _ => Nat.le_refl _, by omega⟩)
  · exact .inr (.inl ⟨rfl, by omega, by omega, fun _ => Nat.le_refl _⟩)
  · exact .inr (.inl ⟨rfl, by omega, by omega, by omega⟩)
  · exact .inr (.inr ⟨rfl, by omega, fun _ => Nat.le_refl _, by omega⟩)
  · exact .inr (.inr ⟨rfl, by omega, by omega, by omega⟩)
  · exact .inr (.inr ⟨rfl, by omega, by omega, fun _ => Nat.le_refl _⟩)

/-- Bytes that `p` takes, one after the other, until it is complete. -/
structure OpenChar.Takes (p : OpenChar) (b : UInt8) (more : Bytes) : Prop where
  least_le : p.least ≤ b.toNat
  le_greatest : b.toNat ≤ p.greatest
  length_add_one : more.length + 1 = p.missing
  tail : ∀ x ∈ more, IsTail x

/-- The bytes that a lead byte asks for make a character with it. -/
theorem exists_encodeChar_of_lead {more : Bytes} (hlead : OpenChar.ofLead? b.toNat = some p)
    (hx : p.Takes x more) : ∃ c, String.utf8EncodeChar c = b :: x :: more := by
  obtain ⟨hleast, hgreatest, hlength, htail⟩ := hx
  obtain ⟨⟨hlow, -, hhigh⟩, hshape⟩ := ofLead?_eq_some hlead
  rcases hshape with ⟨hp, hb⟩ | ⟨hp, hb, hE0, hED⟩ | ⟨hp, hb, hF0, hF4⟩
  · obtain rfl : more = [] := List.eq_nil_of_length_eq_zero (by omega)
    exact exists_encodeChar_two hb ⟨by omega, by omega⟩
  · obtain ⟨y, rfl⟩ := List.length_eq_one_iff.mp (show more.length = 1 by omega)
    exact exists_encodeChar_three hb ⟨by omega, by omega⟩ (htail y (by simp)) (by omega) (by omega)
  · obtain ⟨y, z, rfl⟩ := List.length_eq_two.mp (show more.length = 2 by omega)
    exact exists_encodeChar_four hb ⟨by omega, by omega⟩ (htail y (by simp)) (htail z (by simp))
      (by omega) (by omega)

/-- `p` is the character that is open once `part` has been read. -/
structure Opens (part : Bytes) (p : OpenChar) : Prop where
  ne_nil : part ≠ []
  missing_pos : 0 < p.missing
  inRange : p.InRange
  completes : ∀ b more, p.Takes b more → ∃ c, String.utf8EncodeChar c = part ++ b :: more
  decode : ∀ rest, decodeFrom none (part ++ rest) = decodeFrom (some p) rest

/-- The bytes that an open character takes if they are as small as they can be. -/
theorem OpenChar.takes_least (hp : p.InRange) (hmissing : 0 < p.missing) :
    p.Takes (UInt8.ofNat p.least) (List.replicate (p.missing - 1) 0x80) := by
  obtain ⟨hlow, hle, hhigh⟩ := hp
  have hleast : (UInt8.ofNat p.least).toNat = p.least := by
    rw [UInt8.toNat_ofNat', Nat.mod_eq_of_lt (by omega)]
  refine ⟨hleast.ge, hleast.trans_le hle, ?_, fun x hx => ?_⟩
  · rw [List.length_replicate]
    omega
  · rw [List.eq_of_mem_replicate hx]
    exact ⟨by decide, by decide⟩

theorem opens_lead (hlead : OpenChar.ofLead? b.toNat = some p) : Opens [b] p := by
  obtain ⟨hrange, hshape⟩ := ofLead?_eq_some hlead
  have hhigh : ¬ b.toNat < 0x80 := by omega
  refine ⟨List.cons_ne_nil _ _, by omega, hrange,
    fun x more hx => exists_encodeChar_of_lead hlead hx, fun rest => ?_⟩
  simp [decodeFrom, step, decodeLead, hhigh, hlead]

namespace Opens

variable (h : Opens part p)
include h

theorem starts : Starts part := by
  obtain ⟨c, hc⟩ := h.completes _ _ (OpenChar.takes_least h.inRange h.missing_pos)
  exact ⟨c, hc ▸ List.prefix_append _ _⟩

/-- A byte within the range that does not complete the character leaves it open. -/
theorem append (hleast : p.least ≤ b.toNat) (hgreatest : b.toNat ≤ p.greatest)
    (hmissing : 1 < p.missing) :
    Opens (part ++ [b]) ⟨p.bits * 64 + b.toNat % 64, p.missing - 1, 0x80, 0xBF⟩ := by
  obtain ⟨hlow, hle, hhigh⟩ := h.inRange
  refine ⟨by simp, ?_, ⟨by simp, by simp, by simp⟩, fun x more hx => ?_, fun rest => ?_⟩
  · simp only
    omega
  · have htail : ∀ y ∈ x :: more, IsTail y :=
      List.forall_mem_cons.mpr ⟨⟨hx.least_le, hx.le_greatest⟩, hx.tail⟩
    have hlength : (x :: more).length + 1 = p.missing := by
      have := hx.length_add_one
      simp only [List.length_cons] at this ⊢
      omega
    rw [List.append_assoc, List.singleton_append]
    exact h.completes b (x :: more) ⟨hleast, hgreatest, hlength, htail⟩
  · rw [List.append_assoc, List.singleton_append, h.decode]
    simp [decodeFrom, step, hleast, hgreatest, Nat.not_le.mpr hmissing]

/-- The byte that completes the character makes an encoding. -/
theorem exists_encodeChar (hleast : p.least ≤ b.toNat) (hgreatest : b.toNat ≤ p.greatest)
    (hmissing : p.missing = 1) : ∃ c, String.utf8EncodeChar c = part ++ [b] :=
  h.completes b [] ⟨hleast, hgreatest, hmissing.symm, by simp⟩

/-- No character goes on with a byte that is refused. -/
theorem not_starts_append (hb : ¬ (p.least ≤ b.toNat ∧ b.toNat ≤ p.greatest)) :
    ¬ Starts (part ++ [b]) := by
  rintro ⟨c, more, hc⟩
  have hread := decodeFrom_encodeChar c []
  rw [List.append_nil, ← hc, List.append_assoc, List.singleton_append, h.decode,
    decodeFrom_refused hb] at hread
  exact List.cons_ne_nil _ _ (decodeFrom_none_eq_nil_iff.mp (List.cons.inj hread).2)

/-- What has been read holds no whole character. -/
theorem not_prefix (c : Char) : ¬ String.utf8EncodeChar c <+: part := by
  rintro ⟨more, rfl⟩
  obtain ⟨d, hd⟩ := h.completes _ _ (OpenChar.takes_least h.inRange h.missing_pos)
  rw [List.append_assoc] at hd
  have hnil := eq_nil_of_encodeChar_append hd.symm
  simp at hnil

/-- Where the next byte is refused, or where there is none, what has been read is a maximal
subpart. -/
theorem isMaximalSubpart
    (hrest : ∀ b ∈ rest.head?, ¬ (p.least ≤ b.toNat ∧ b.toNat ≤ p.greatest)) :
    IsMaximalSubpart part rest := by
  have hmaximal : ∀ other, other <+: part ++ rest → Starts other → other.length ≤ part.length := by
    intro other hother hstarts
    by_contra hlonger
    obtain ⟨more, rfl⟩ :=
      List.prefix_of_prefix_length_le (List.prefix_append part rest) hother (by omega)
    obtain ⟨b, more, rfl⟩ := List.exists_cons_of_ne_nil (l := more) (by rintro rfl; simp at hlonger)
    obtain ⟨tail, htail⟩ := (List.prefix_append_right_inj part).mp hother
    refine h.not_starts_append (hrest b (by simp [← htail])) (hstarts.of_prefix ?_)
    exact ⟨more, by simp⟩
  refine ⟨fun c hc => ?_, h.ne_nil, .inl h.starts, hmaximal⟩
  have hle := hmaximal _ hc ⟨c, List.prefix_refl _⟩
  exact h.not_prefix c (List.prefix_of_prefix_length_le hc (List.prefix_append part rest) hle)

end Opens

/-- A byte from `80` up that no longer character begins with is a maximal subpart by itself. -/
theorem isMaximalSubpart_singleton (hhigh : ¬ b.toNat < 0x80)
    (hlead : OpenChar.ofLead? b.toNat = none) : IsMaximalSubpart [b] rest := by
  have hstarts : ¬ Starts [b] := by
    rintro ⟨c, more, hc⟩
    have hread := decodeFrom_encodeChar c []
    rw [List.append_nil, ← hc, List.singleton_append, decodeFrom_unreadable hhigh hlead,
      List.cons.injEq] at hread
    obtain rfl : more = [] := decodeFrom_none_eq_nil_iff.mp hread.2
    rw [List.append_nil, ← hread.1] at hc
    have hlength := congrArg List.length hc
    rw [show (String.utf8EncodeChar replacement).length = 3 by decide] at hlength
    simp at hlength
  have hnone : ∀ other, other <+: [b] ++ rest → Starts other → other = [] := by
    intro other hother hs
    cases other with
    | nil => rfl
    | cons x more =>
      obtain rfl : x = b := (List.cons_prefix_cons.mp hother).1
      exact absurd (hs.of_prefix ⟨more, rfl⟩) hstarts
  refine ⟨fun c hc => encodeChar_ne_nil c (hnone _ hc ⟨c, List.prefix_refl _⟩), by simp, .inr rfl,
    fun other hother hs => ?_⟩
  rw [hnone other hother hs]
  exact Nat.zero_le _

/-! ### Decoding is that reading -/

/-- Decoding reads the bytes, both between characters and with one open. The induction is on the
bytes still to come; a refused byte is read again as if none were open. -/
theorem reads_decodeFrom (bytes : Bytes) :
    Reads bytes (decodeFrom none bytes) ∧
      ∀ part p, Opens part p → Reads (part ++ bytes) (decodeFrom (some p) bytes) := by
  induction bytes with
  | nil => exact ⟨.nil, fun part p h => .broken (h.isMaximalSubpart (by simp)) .nil⟩
  | cons b bs ih =>
    obtain ⟨hbetween, hopen⟩ := ih
    have hlead : Reads (b :: bs) (decodeFrom none (b :: bs)) := by
      by_cases hascii : b.toNat < 0x80
      · obtain ⟨c, hc⟩ := exists_encodeChar_one hascii
        have hread := decodeFrom_encodeChar c bs
        rw [hc, List.singleton_append] at hread
        rw [hread, ← List.singleton_append, ← hc]
        exact .char c hbetween
      · cases hp : OpenChar.ofLead? b.toNat with
        | some p =>
          have hp' := opens_lead hp
          rw [← List.singleton_append, hp'.decode]
          exact hopen [b] p hp'
        | none =>
          rw [decodeFrom_unreadable hascii hp]
          exact .broken (isMaximalSubpart_singleton hascii hp) hbetween
    refine ⟨hlead, fun part p h => ?_⟩
    by_cases hb : p.least ≤ b.toNat ∧ b.toNat ≤ p.greatest
    · rw [← h.decode, List.append_cons]
      rcases Nat.lt_or_ge 1 p.missing with hmissing | hmissing
      · have h' := h.append hb.1 hb.2 hmissing
        rw [h'.decode]
        exact hopen _ _ h'
      · obtain ⟨c, hc⟩ :=
          h.exists_encodeChar hb.1 hb.2 (Nat.le_antisymm hmissing h.missing_pos)
        rw [← hc, decodeFrom_encodeChar]
        exact .char c hbetween
    · rw [decodeFrom_refused hb]
      exact .broken (h.isMaximalSubpart (by simpa using hb)) hlead

/-- A maximal subpart is no longer than another at the same place. -/
theorem IsMaximalSubpart.length_le {part' rest' : Bytes} (h : IsMaximalSubpart part rest)
    (h' : IsMaximalSubpart part' rest') (heq : part ++ rest = part' ++ rest') :
    part.length ≤ part'.length := by
  rcases h.starts_or_single with hs | hs
  · exact h'.maximal part (heq ▸ List.prefix_append _ _) hs
  · exact hs.trans_le (List.length_pos_of_ne_nil h'.ne_nil)

/-- Bytes are read in one way only. -/
theorem Reads.unique {ds : List Char} (h : Reads bytes cs) (h' : Reads bytes ds) : cs = ds := by
  induction h generalizing ds with
  | nil =>
    generalize hnil : ([] : Bytes) = bytes at h'
    cases h' with
    | nil => rfl
    | char d => exact absurd (List.append_eq_nil_iff.mp hnil.symm).1 (encodeChar_ne_nil d)
    | broken hpart => exact absurd (List.append_eq_nil_iff.mp hnil.symm).1 hpart.ne_nil
  | @char c rest cs _ ih =>
    generalize hbytes : String.utf8EncodeChar c ++ rest = bytes at h'
    cases h' with
    | nil => exact absurd (List.append_eq_nil_iff.mp hbytes).1 (encodeChar_ne_nil c)
    | @char d rest' ds h' =>
      have hread := congrArg (decodeFrom none) hbytes
      rw [decodeFrom_encodeChar, decodeFrom_encodeChar] at hread
      obtain rfl : c = d := (List.cons.inj hread).1
      rw [ih ((List.append_cancel_left hbytes).symm ▸ h')]
    | broken hpart => exact absurd ⟨rest, hbytes⟩ (hpart.unreadable c)
  | @broken part rest cs hpart _ ih =>
    generalize hbytes : part ++ rest = bytes at h'
    cases h' with
    | nil => exact absurd (List.append_eq_nil_iff.mp hbytes).1 hpart.ne_nil
    | char d => exact absurd ⟨_, hbytes.symm⟩ (hpart.unreadable d)
    | @broken part' rest' ds hpart' h' =>
      have hlength : part.length = part'.length :=
        Nat.le_antisymm (hpart.length_le hpart' hbytes) (hpart'.length_le hpart hbytes.symm)
      rw [ih ((List.append_inj hbytes hlength).2.symm ▸ h')]

/-- **Decoding is the reading of any bytes.** -/
theorem decode_eq_iff_reads : decode bytes = cs ↔ Reads bytes cs :=
  ⟨fun h => h ▸ (reads_decodeFrom bytes).1, fun h => (reads_decodeFrom bytes).1.unique h⟩

/-- Two bytes of four, then a lead byte, then a byte that is no part of its character. -/
example : decode [0xF0, 0x9F, 0xE2, 0x41] = [replacement, replacement, 'A'] := by decide

/-- The bytes of a string are those of its characters. -/
theorem toList_toUTF8 (text : String) : text.toUTF8.data.toList = encode text.toList := by
  have hbytes : text.toByteArray = text.toList.utf8Encode := by
    rw [← String.toByteArray_ofList, String.ofList_toList]
  rw [String.toUTF8_eq_toByteArray, hbytes]
  simp [List.utf8Encode, encode]

end Utf8

/-! ### Manifests -/

namespace Manifest

/-- A manifest is read as its text. -/
theorem parse_decode (file : String) (source : Source) :
    parse file (.text source.decode) = parse file source :=
  rfl

/-- **A text and its bytes make the same manifest and the same patch**, or fail in the same way: the
bytes are read as the text. Any bytes are read as characters and, wherever none can be read, a
replacement for the maximal subpart that stands there. -/
theorem text_and_bytes_agree (text : String) :
    (Source.bytes text.toUTF8.data.toList).decode = text.toList ∧
      (∀ file, parse file (.bytes text.toUTF8.data.toList) = parse file (.text text.toList)) ∧
      (∀ asset name file placeholder,
        Patch.build (.bytes text.toUTF8.data.toList) asset name file placeholder =
          Patch.build (.text text.toList) asset name file placeholder) ∧
      ∀ bytes cs, (Source.bytes bytes).decode = cs ↔ Utf8.Reads bytes cs := by
  have hdecode : (Source.bytes text.toUTF8.data.toList).decode = text.toList := by
    rw [Utf8.toList_toUTF8, Source.decode, Utf8.decode_encode]
  have hparse (file) :
      parse file (.bytes text.toUTF8.data.toList) = parse file (.text text.toList) := by
    rw [← hdecode, parse_decode]
  refine ⟨hdecode, hparse, fun asset name file placeholder => ?_,
    fun bytes cs => Utf8.decode_eq_iff_reads⟩
  simp only [Patch.build, hparse]

end Manifest

end ModelPatch

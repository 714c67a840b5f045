import Mathlib
import ModelPatch.Bytes.Lemmas

/-!
# Reads, overwrites and searches, byte by byte

A read of `width` bytes depends on those bytes alone. That is the whole content of the first group
of lemmas, and it is what moves a fact about one byte string to another: a number that was read in
an asset is read again in any output that agrees with the asset there.

## Main definitions

* `Bytes.AgreeOn`: two byte strings have the same bytes on a range.

## Main results

* `Bytes.slice?_eq_some_iff_getElem?`: a slice, said through its bytes;
* `Bytes.AgreeOn.slice?`, `Bytes.AgreeOn.word?`: strings that agree on a range are read alike there;
* `Bytes.slice?_trans`: a slice of a slice is a slice;
* `Bytes.agreeOn_take_append`: a string agrees with its first part, whatever is put behind that;
* `Bytes.getElem?_splice`: an overwrite decides its own range and leaves all else alone;
* `Bytes.firstPosition?_eq_some_iff`: the first position is a position, and none lies before it.
-/

namespace ModelPatch.Bytes

variable {a b bytes piece pattern : Bytes} {offset width : Nat}

/-! ### Slices -/

/-- A slice, said through its bytes. Every other fact about reads goes through this form. -/
theorem slice?_eq_some_iff_getElem? :
    slice? bytes offset width = some piece ↔
      piece.length = width ∧ ∀ k < width, bytes[offset + k]? = piece[k]? := by
  rw [slice?_eq_some_iff]
  constructor
  · rintro ⟨rfl, hlen⟩
    refine ⟨hlen, ?_⟩
    intro k hk
    rw [List.getElem?_take_of_lt hk, List.getElem?_drop]
  · rintro ⟨hlen, hbytes⟩
    refine ⟨List.ext_getElem? ?_, hlen⟩
    intro k
    by_cases hk : k < width
    · rw [List.getElem?_take_of_lt hk, List.getElem?_drop, hbytes k hk]
    · rw [List.getElem?_eq_none (by omega), List.getElem?_eq_none (by simp; omega)]

theorem slice?_eq_some_of_le (h : offset + width ≤ bytes.length) :
    slice? bytes offset width = some ((bytes.drop offset).take width) :=
  slice?_eq_some_iff.mpr ⟨rfl, by simp; omega⟩

/-- A read that succeeds stays inside the bytes. -/
theorem le_length_of_slice? (h : slice? bytes offset width = some piece) (hwidth : 0 < width) :
    offset + width ≤ bytes.length := by
  obtain ⟨rfl, hlength⟩ := slice?_eq_some_iff.mp h
  rw [List.length_take, List.length_drop] at hlength
  omega

/-- Two byte strings have the same bytes on a range. -/
def AgreeOn (a b : Bytes) (offset width : Nat) : Prop :=
  ∀ k < width, a[offset + k]? = b[offset + k]?

/-- Strings that agree on a range agree on every part of it. -/
theorem AgreeOn.part {i w : Nat} (h : AgreeOn a b offset width) (hi : i + w ≤ width) :
    AgreeOn a b (offset + i) w := by
  intro k hk
  rw [Nat.add_assoc]
  exact h (i + k) (by omega)

/-- Strings that agree on a range have the same slice there. -/
theorem AgreeOn.slice? (h : AgreeOn a b offset width) :
    slice? a offset width = slice? b offset width := by
  refine Option.ext fun piece => ?_
  rw [slice?_eq_some_iff_getElem?, slice?_eq_some_iff_getElem?]
  exact and_congr_right fun _ => forall₂_congr fun k hk => by rw [h k hk]

/-- A pattern stands at an offset if the slice there is the pattern. -/
theorem isPrefix_drop_iff_slice? :
    pattern <+: bytes.drop offset ↔ Bytes.slice? bytes offset pattern.length = some pattern := by
  rw [List.prefix_iff_eq_take, slice?_eq_some_iff, and_iff_left rfl]

/-- A slice of a slice is a slice. -/
theorem slice?_trans {part : Bytes} {i w : Nat} (h : slice? bytes offset width = some piece)
    (hpart : slice? piece i w = some part) : slice? bytes (offset + i) w = some part := by
  rw [slice?_eq_some_iff_getElem?] at h hpart ⊢
  refine ⟨hpart.1, fun k hk => ?_⟩
  have hlt : i + k < piece.length := by
    have hsome : piece[i + k]? = some part[k] :=
      (hpart.2 k hk).trans (List.getElem?_eq_getElem (by omega))
    exact (List.getElem?_eq_some_iff.mp hsome).1
  rw [Nat.add_assoc, h.2 (i + k) (by omega), hpart.2 k hk]

/-- What is read inside a slice is what is read there in the whole. -/
theorem slice?_of_slice? {i w : Nat} (h : slice? bytes offset width = some piece)
    (hi : i + w ≤ width) : slice? piece i w = slice? bytes (offset + i) w := by
  rw [slice?_eq_some_iff_getElem?] at h
  refine Option.ext fun part => ?_
  rw [slice?_eq_some_iff_getElem?, slice?_eq_some_iff_getElem?]
  refine and_congr_right fun _ => forall₂_congr fun k hk => ?_
  rw [Nat.add_assoc, h.2 (i + k) (by omega)]

theorem slice?_append_left (a b : Bytes) : slice? (a ++ b) 0 a.length = some a :=
  slice?_eq_some_iff.mpr ⟨by rw [List.drop_zero, List.take_left], rfl⟩

/-- What stands between two pieces is read where the first one ends. -/
theorem slice?_append_append (front piece back : Bytes) :
    slice? (front ++ (piece ++ back)) front.length piece.length = some piece := by
  rw [slice?_eq_some_iff, List.drop_left, List.take_left]
  exact ⟨rfl, rfl⟩

/-- A read that succeeds is not changed by what is put behind the bytes. -/
theorem slice?_append (h : slice? bytes offset width = some piece) (tail : Bytes) :
    slice? (bytes ++ tail) offset width = some piece := by
  simpa using slice?_trans (slice?_append_left bytes tail) h

/-- A byte string agrees with its first part, whatever is put behind that. -/
theorem agreeOn_take_append {n : Nat} (hn : offset + width ≤ n)
    (hbytes : offset + width ≤ bytes.length) (tail : Bytes) :
    AgreeOn (bytes.take n ++ tail) bytes offset width := by
  intro k hk
  rw [List.getElem?_append_left (by rw [List.length_take]; omega),
    List.getElem?_take_of_lt (by omega)]

/-! ### Words -/

/-- Strings that agree on four bytes have the same word there. -/
theorem AgreeOn.word? (h : AgreeOn a b offset 4) : word? a offset = word? b offset := by
  rw [Bytes.word?, Bytes.word?, h.slice?]

/-- A word of a slice is a word. -/
theorem word?_of_slice? {i n : Nat} (h : slice? bytes offset width = some piece)
    (hword : word? piece i = some n) : word? bytes (offset + i) = some n := by
  obtain ⟨four, hfour, rfl⟩ := Option.map_eq_some_iff.mp hword
  rw [word?, slice?_trans h hfour, Option.map_some]

theorem word?_append {n : Nat} (h : word? bytes offset = some n) (tail : Bytes) :
    word? (bytes ++ tail) offset = some n := by
  simpa using word?_of_slice? (slice?_append_left bytes tail) h

/-- A number that was read as a word is smaller than the limit of words. -/
theorem lt_of_word? {n : Nat} (h : word? bytes offset = some n) : n < wordLimit := by
  obtain ⟨four, hfour, rfl⟩ := Option.map_eq_some_iff.mp h
  have hlimit := toNat_lt four
  rwa [(slice?_eq_some_iff.mp hfour).2] at hlimit

theorem word?_isSome_of_le (h : offset + 4 ≤ bytes.length) : (word? bytes offset).isSome := by
  rw [word?, slice?_eq_some_of_le h]
  rfl

/-- A number that was written as a word is read back. -/
theorem word?_eq_some_of_ofNat {n : Nat} (hn : n < wordLimit)
    (h : slice? bytes offset 4 = some (ofNat 4 n)) : word? bytes offset = some n := by
  have hpow : (256 : Nat) ^ 4 = wordLimit := rfl
  rw [word?, h, Option.map_some, toNat_ofNat, hpow, Nat.mod_eq_of_lt hn]

/-- The bytes of a word that is read are those of the number. -/
theorem getElem?_of_word? {n k : Nat} (h : word? bytes offset = some n) (hk : k < 4) :
    bytes[offset + k]? = (ofNat 4 n)[k]? := by
  obtain ⟨four, hfour, rfl⟩ := Option.map_eq_some_iff.mp h
  obtain ⟨hlen, hbytes⟩ := slice?_eq_some_iff_getElem?.mp hfour
  rw [← hlen, ofNat_toNat]
  exact hbytes k hk

/-! ### Overwrites -/

theorem clampBound_natCast {i : Nat} (h : i ≤ bytes.length) : clampBound bytes i = i := by
  simp only [clampBound]
  rw [if_neg (Int.natCast_nonneg i).not_gt, min_eq_right (Int.ofNat_le.mpr h), Int.toNat_natCast]

theorem splice_natCast (h : offset + piece.length ≤ bytes.length) :
    splice bytes offset ((offset : Int) + piece.length) piece =
      bytes.take offset ++ piece ++ bytes.drop (offset + piece.length) := by
  have hlo : clampBound bytes offset = offset := clampBound_natCast (by omega)
  have hhi : clampBound bytes ((offset : Int) + piece.length) = offset + piece.length :=
    clampBound_natCast h
  simp only [splice, hlo, hhi, Nat.max_eq_right (Nat.le_add_right offset piece.length)]

/-- **Read after write.** Bytes of the overwritten range come from the piece, and all others are
what they were. -/
theorem getElem?_splice (h : offset + piece.length ≤ bytes.length) (i : Nat) :
    (splice bytes offset ((offset : Int) + piece.length) piece)[i]? =
      if offset ≤ i ∧ i < offset + piece.length then piece[i - offset]? else bytes[i]? := by
  have hfront : (bytes.take offset).length = offset := by simp; omega
  rw [splice_natCast h, List.append_assoc]
  split
  · next hin =>
    rw [List.getElem?_append_right (by omega), hfront, List.getElem?_append_left (by omega)]
  · next hout =>
    rcases Nat.lt_or_ge i offset with hlt | hge
    · rw [List.getElem?_append_left (by omega), List.getElem?_take_of_lt hlt]
    · rw [List.getElem?_append_right (by omega), hfront, List.getElem?_append_right (by omega),
        List.getElem?_drop]
      congr 1
      omega

/-- What was written can be read where it was written. -/
theorem slice?_splice (h : offset + piece.length ≤ bytes.length) :
    slice? (splice bytes offset ((offset : Int) + piece.length) piece) offset piece.length =
      some piece := by
  rw [slice?_eq_some_iff_getElem?]
  refine ⟨rfl, fun k hk => ?_⟩
  rw [getElem?_splice h, if_pos (by omega), Nat.add_sub_cancel_left]

theorem length_splice (h : offset + piece.length ≤ bytes.length) :
    (splice bytes offset ((offset : Int) + piece.length) piece).length = bytes.length := by
  rw [splice_natCast h]
  simp
  omega

/-! ### Positions -/

theorem le_of_mem_positionsFrom {start i : Nat} (h : i ∈ positionsFrom pattern start bytes) :
    start ≤ i := by
  obtain ⟨k, rfl, -⟩ := mem_positionsFrom.mp h
  exact Nat.le_add_right start k

theorem pairwise_positionsFrom (pattern bytes : Bytes) (start : Nat) :
    (positionsFrom pattern start bytes).Pairwise (· < ·) := by
  induction bytes generalizing start with
  | nil => by_cases h : pattern.isEmpty <;> simp [positionsFrom, h]
  | cons b bs ih =>
    rw [positionsFrom]
    split
    · exact List.pairwise_cons.mpr ⟨fun i hi => le_of_mem_positionsFrom hi, ih (start + 1)⟩
    · exact ih (start + 1)

/-- Positions come in ascending order. -/
theorem pairwise_positions (pattern bytes : Bytes) : (positions pattern bytes).Pairwise (· < ·) :=
  pairwise_positionsFrom pattern bytes 0

/-- The first position is a position, and none lies before it. -/
theorem firstPosition?_eq_some_iff {i : Nat} :
    firstPosition? pattern bytes = some i ↔
      i ≤ bytes.length ∧ pattern <+: bytes.drop i ∧ ∀ j < i, ¬ pattern <+: bytes.drop j := by
  have hsorted := pairwise_positions pattern bytes
  rw [firstPosition?]
  constructor
  · intro h
    obtain ⟨rest, hrest⟩ := List.head?_eq_some_iff.mp h
    obtain ⟨hi, hat⟩ := mem_positions.mp (hrest ▸ List.mem_cons_self : i ∈ positions pattern bytes)
    refine ⟨hi, hat, fun j hj hp => ?_⟩
    have hmem : j ∈ positions pattern bytes := mem_positions.mpr ⟨by omega, hp⟩
    rw [hrest] at hmem hsorted
    rcases List.mem_cons.mp hmem with rfl | hmem
    · exact absurd hj (Nat.lt_irrefl j)
    · exact absurd ((List.pairwise_cons.mp hsorted).1 j hmem) (by omega)
  · rintro ⟨hi, hat, hfirst⟩
    have hmem : i ∈ positions pattern bytes := mem_positions.mpr ⟨hi, hat⟩
    cases hpos : positions pattern bytes with
    | nil => rw [hpos] at hmem; exact absurd hmem List.not_mem_nil
    | cons j rest =>
      rw [hpos] at hmem hsorted
      rcases List.mem_cons.mp hmem with rfl | hmem
      · rfl
      · have hlt := (List.pairwise_cons.mp hsorted).1 i hmem
        have hj := mem_positions.mp (hpos ▸ List.mem_cons_self : j ∈ positions pattern bytes)
        exact absurd hj.2 (hfirst j hlt)

end ModelPatch.Bytes

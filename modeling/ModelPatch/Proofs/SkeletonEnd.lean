import Mathlib
import ModelPatch.Proofs.SkeletonFormat

/-!
# Skeletons at the end of an asset

A limb table has room for 21 slots if it ends where the asset ends, and a limb has room for its 16
bytes if it ends there. The examination asks for one byte more in both cases. So there are headers
that have all they need and are not found: those whose table, or one of whose limbs, is the very end
of the asset. Nothing else is missed, and a single byte put behind such an asset, whichever, brings
the header back.

## Main definitions

* `Skeleton.LimbFits`, `Skeleton.SlotFits`, `Skeleton.HeaderFits`: limbs, slots and headers by their
  bytes, which may be the last ones of the asset;
* `Skeleton.TouchesEnd`: the table of a header or one of its limbs ends with the asset.

## Main results

* `Skeleton.headerAt_iff_fits`: what is taken for a header is a header that does not touch the end;
* `Skeleton.found_unless_at_end`: a header is found unless it touches the end;
* `Skeleton.missed_at_end`: two assets with headers that are missed.
-/

namespace ModelPatch.Skeleton

variable {asset : Bytes} {limb slot o : Nat}

/-! ### Room for tables and limbs -/

/-- A limb stands at `limb`: at a multiple of eight, with its 16 bytes in the asset, and with two
display lists, at distances 8 and 12, that are the same word. -/
structure LimbFits (asset : Bytes) (limb : Nat) : Prop where
  /-- The limb is aligned. -/
  aligned : limb % 8 = 0
  /-- The limb lies in the asset. It may be the end of it. -/
  room : limb + 16 ≤ asset.length
  /-- The near and the far display list agree. -/
  lists : ∃ list, Bytes.word? asset (limb + 8) = some list ∧
    Bytes.word? asset (limb + 12) = some list

/-- The four bytes at `slot` are the address of a limb: a byte with the number of the segment, and
the offset of the limb in the three others. -/
structure SlotFits (asset : Bytes) (slot : Nat) : Prop where
  /-- The first byte is the number of the segment. -/
  segment : asset[slot]? = some 6
  /-- The low 24 bits are the offset of a limb. -/
  limb : ∃ address, Bytes.word? asset slot = some address ∧ LimbFits asset (address % 0x1000000)

/-- A skeleton header stands at `o`, and all that it points to lies in the asset. -/
structure HeaderFits (asset : Bytes) (o : Nat) : Prop where
  /-- The two counts, 21 limbs and 18 of them drawn, stand behind the first word. -/
  counts : Bytes.slice? asset (o + 4) 8 = some [0x15, 0, 0, 0, 0x12, 0, 0, 0]
  /-- The low 24 bits of the first word are the offset of an aligned table of 21 slots. The table
  may be the end of the asset. -/
  table : ∃ address, Bytes.word? asset o = some address ∧ address % 0x1000000 % 8 = 0 ∧
    address % 0x1000000 + 0x54 ≤ asset.length ∧
    ∀ i < 21, SlotFits asset (address % 0x1000000 + 4 * i)

/-- The limb table of the header at `o`, or one of its limbs, ends where the asset ends. -/
def TouchesEnd (asset : Bytes) (o : Nat) : Prop :=
  ∃ address, Bytes.word? asset o = some address ∧
    (address % 0x1000000 + 0x54 = asset.length ∨
      ∃ i < 21, ∃ limb, Bytes.word? asset (address % 0x1000000 + 4 * i) = some limb ∧
        limb % 0x1000000 + 16 = asset.length)

/-! ### One byte more -/

theorem limbAt_iff_fits : LimbAt asset limb ↔ LimbFits asset limb ∧ limb + 16 ≠ asset.length := by
  constructor
  · rintro ⟨haligned, hroom, hlists⟩
    exact ⟨⟨haligned, hroom.le, hlists⟩, hroom.ne⟩
  · rintro ⟨⟨haligned, hroom, hlists⟩, hne⟩
    exact ⟨haligned, lt_of_le_of_ne hroom hne, hlists⟩

theorem slotAt_iff_fits :
    SlotAt asset slot ↔ SlotFits asset slot ∧
      ¬ ∃ address, Bytes.word? asset slot = some address ∧
        address % 0x1000000 + 16 = asset.length := by
  constructor
  · rintro ⟨hsegment, address, haddress, hlimb⟩
    obtain ⟨hfits, hne⟩ := limbAt_iff_fits.mp hlimb
    refine ⟨⟨hsegment, address, haddress, hfits⟩, ?_⟩
    rintro ⟨other, hother, hend⟩
    obtain rfl : address = other := Option.some.inj (haddress.symm.trans hother)
    exact hne hend
  · rintro ⟨⟨hsegment, address, haddress, hfits⟩, hnot⟩
    have hne : address % 0x1000000 + 16 ≠ asset.length := fun hend =>
      hnot ⟨address, haddress, hend⟩
    exact ⟨hsegment, address, haddress, limbAt_iff_fits.mpr ⟨hfits, hne⟩⟩

/-- **What is taken for a header is a header that does not touch the end.** -/
theorem headerAt_iff_fits : HeaderAt asset o ↔ HeaderFits asset o ∧ ¬ TouchesEnd asset o := by
  constructor
  · rintro ⟨-, hcounts, address, haddress, haligned, htable, hslots⟩
    refine ⟨⟨hcounts, address, haddress, haligned, htable.le, fun i hi =>
      (slotAt_iff_fits.mp (hslots i hi)).1⟩, ?_⟩
    rintro ⟨other, hother, hend⟩
    obtain rfl : address = other := Option.some.inj (haddress.symm.trans hother)
    -- both bounds are strict, so neither the table nor a limb can be the end
    rcases hend with hend | ⟨i, hi, hlimb⟩
    · exact htable.ne hend
    · exact (slotAt_iff_fits.mp (hslots i hi)).2 hlimb
  · rintro ⟨⟨hcounts, address, haddress, haligned, htable, hslots⟩, hnot⟩
    have hroom : o + 4 + 8 ≤ asset.length := Bytes.le_length_of_slice? hcounts (by decide)
    have hne : address % 0x1000000 + 0x54 ≠ asset.length := fun hend =>
      hnot ⟨address, haddress, .inl hend⟩
    refine ⟨hroom, hcounts, address, haddress, haligned, lt_of_le_of_ne htable hne, fun i hi => ?_⟩
    refine slotAt_iff_fits.mpr ⟨hslots i hi, ?_⟩
    rintro ⟨limb, hlimb, hend⟩
    exact hnot ⟨address, haddress, .inr ⟨i, hi, limb, hlimb, hend⟩⟩

theorem HeaderFits.isHeader_iff (h : HeaderFits asset o) :
    (isHeader asset (o : Int)).result = .ok true ↔ ¬ TouchesEnd asset o := by
  have hat : HeaderAt asset o ↔ ¬ TouchesEnd asset o := by rw [headerAt_iff_fits, and_iff_right h]
  rw [result_isHeader_eq_true_iff, ← hat, headerAt_iff, and_iff_right]
  exact h.counts

/-! ### Bytes behind the asset -/

theorem LimbFits.append (h : LimbFits asset limb) (tail : Bytes) :
    LimbFits (asset ++ tail) limb := by
  obtain ⟨list, hnear, hfar⟩ := h.lists
  refine ⟨h.aligned, ?_, list, Bytes.word?_append hnear tail, Bytes.word?_append hfar tail⟩
  rw [List.length_append]
  exact h.room.trans (Nat.le_add_right _ _)

theorem SlotFits.append (h : SlotFits asset slot) (tail : Bytes) :
    SlotFits (asset ++ tail) slot := by
  obtain ⟨address, haddress, hlimb⟩ := h.limb
  refine ⟨?_, address, Bytes.word?_append haddress tail, hlimb.append tail⟩
  rw [List.getElem?_append_left (List.getElem?_eq_some_iff.mp h.segment).1]
  exact h.segment

/-- A header that fits in an asset fits in every longer one. -/
theorem HeaderFits.append (h : HeaderFits asset o) (tail : Bytes) :
    HeaderFits (asset ++ tail) o := by
  obtain ⟨address, haddress, haligned, htable, hslots⟩ := h.table
  refine ⟨Bytes.slice?_append h.counts tail, address, Bytes.word?_append haddress tail, haligned,
    ?_, fun i hi => (hslots i hi).append tail⟩
  rw [List.length_append]
  exact htable.trans (Nat.le_add_right _ _)

/-- In a longer asset, nothing that a header points to ends with the asset. -/
theorem HeaderFits.not_touchesEnd_append (h : HeaderFits asset o) {tail : Bytes}
    (htail : tail ≠ []) : ¬ TouchesEnd (asset ++ tail) o := by
  have hlonger : asset.length < (asset ++ tail).length := by
    have hpos := List.length_pos_of_ne_nil htail
    rw [List.length_append]
    omega
  -- the words are read as before, and what they point to ends at the old end or earlier
  obtain ⟨address, haddress, -, htable, hslots⟩ := h.table
  rintro ⟨other, hother, hend⟩
  obtain rfl : address = other :=
    Option.some.inj ((Bytes.word?_append haddress tail).symm.trans hother)
  rcases hend with hend | ⟨i, hi, limb, hlimb, hend⟩
  · omega
  · obtain ⟨found, hfound, hfits⟩ := (hslots i hi).limb
    obtain rfl : found = limb :=
      Option.some.inj ((Bytes.word?_append hfound tail).symm.trans hlimb)
    have hroom := hfits.room
    omega

/-! ### What is found and what is missed -/

/-- **A header is found unless it touches the end.** It passes the examination, and the search comes
to it or to an earlier one, unless its table or one of its limbs is the end of the asset; and with
any bytes put behind the asset it always is found. -/
theorem found_unless_at_end (h : HeaderFits asset o) :
    ((isHeader asset (o : Int)).result = .ok true ↔ ¬ TouchesEnd asset o) ∧
      (¬ TouchesEnd asset o → ∃ found ≤ o, (find asset).result = .ok (some found)) ∧
      ∀ tail, tail ≠ [] →
        (isHeader (asset ++ tail) (o : Int)).result = .ok true ∧
          ∃ found ≤ o, (find (asset ++ tail)).result = .ok (some found) := by
  have hfound : ∀ {bytes : Bytes}, HeaderFits bytes o → ¬ TouchesEnd bytes o →
      ∃ found ≤ o, (find bytes).result = .ok (some found) := fun hfits hnot =>
    exists_find_le hfits.counts (result_isHeader_eq_true_iff.mp (hfits.isHeader_iff.mpr hnot))
  refine ⟨h.isHeader_iff, hfound h, fun tail htail => ?_⟩
  have hnot := h.not_touchesEnd_append htail
  exact ⟨(h.append tail).isHeader_iff.mpr hnot, hfound (h.append tail) hnot⟩

/-- An asset with a limb table as its end: a header, a limb and the table. -/
def tableLast : Bytes :=
  [6, 0, 0, 0x20] ++ countPattern ++ [0, 0, 0, 0] ++ List.replicate 16 0 ++
    (List.replicate 21 [6, 0, 0, 0x10]).flatten

theorem headerFits_tableLast : HeaderFits tableLast 0 := by
  have hslots : ∀ i < 21, tableLast[0x20 + 4 * i]? = some 6 ∧
      Bytes.word? tableLast (0x20 + 4 * i) = some 0x06000010 := by decide +kernel
  have hlimb : LimbFits tableLast 0x10 :=
    ⟨by decide, by decide, 0, by decide +kernel, by decide +kernel⟩
  refine ⟨by decide +kernel, 0x06000020, by decide +kernel, by decide, by decide, fun i hi => ?_⟩
  exact ⟨(hslots i hi).1, 0x06000010, (hslots i hi).2, hlimb⟩

/-- A zero byte behind the table is enough. -/
theorem found_unless_at_end_tableLast :
    HeaderFits tableLast 0 ∧ (isHeader (tableLast ++ [0]) 0).result = .ok true ∧
      ∃ found ≤ 0, (find (tableLast ++ [0])).result = .ok (some found) :=
  ⟨headerFits_tableLast, (found_unless_at_end headerFits_tableLast).2.2 [0] (by decide)⟩

/-- An asset with a limb as its end: a header, the limb table and the limb. -/
def limbLast : Bytes :=
  [6, 0, 0, 0x10] ++ countPattern ++ [0, 0, 0, 0] ++ (List.replicate 21 [6, 0, 0, 0x68]).flatten ++
    [0, 0, 0, 0] ++ List.replicate 16 0

theorem headerFits_limbLast : HeaderFits limbLast 0 := by
  have hslots : ∀ i < 21, limbLast[0x10 + 4 * i]? = some 6 ∧
      Bytes.word? limbLast (0x10 + 4 * i) = some 0x06000068 := by decide +kernel
  have hlimb : LimbFits limbLast 0x68 :=
    ⟨by decide, by decide, 0, by decide +kernel, by decide +kernel⟩
  refine ⟨by decide +kernel, 0x06000010, by decide +kernel, by decide, by decide, fun i hi => ?_⟩
  exact ⟨(hslots i hi).1, 0x06000068, (hslots i hi).2, hlimb⟩

/-- **Headers at the end are missed**, be it the table or a limb that ends with the asset. -/
theorem missed_at_end :
    (HeaderFits tableLast 0 ∧ (isHeader tableLast 0).result = .ok false ∧
        (find tableLast).result = .ok none) ∧
      HeaderFits limbLast 0 ∧ (isHeader limbLast 0).result = .ok false ∧
        (find limbLast).result = .ok none := by
  refine ⟨⟨headerFits_tableLast, ?_, ?_⟩, headerFits_limbLast, ?_, ?_⟩
  all_goals decide +kernel

end ModelPatch.Skeleton

import Mathlib
import ModelPatch.Proofs.SkeletonPlace

/-!
# What a skeleton header is

Nothing marks a skeleton header, so what it must satisfy is the only thing that tells it from other
bytes. These requirements are stated here on the bytes of the asset, without a word about how they
are examined: the two counts, a limb table at a multiple of eight, 21 slots with addresses of the
object segment, and behind each of them a limb whose two display lists agree. Table and limbs end
before the last byte of the asset.

The examination decides exactly that, for every byte string and every place, with no read outside
the bytes. The search then comes to the first place at which such a header stands, whether the
counts occur elsewhere, overlap or stand too close to the front for a header.

## Main definitions

* `Skeleton.LimbAt`, `Skeleton.SlotAt`, `Skeleton.HeaderAt`: limbs, slots and headers by their
  bytes;
* `Skeleton.Passes`: the counts stand at a place, and the examination of it goes well.

## Main results

* `Skeleton.isLimb?_eq_true_iff_slotAt`, `Skeleton.headerAt_iff`: the examination decides what a
  slot and a header are;
* `Skeleton.passes_iff`: headers stand at the places that pass;
* `Skeleton.search_finds_first`: the search is sound, finds the first header, and reads in bounds.
-/

namespace ModelPatch

namespace Skeleton

variable {asset : Bytes} {slot o : Nat} {place : Int}

/-! ### The format -/

/-- A limb stands at `limb`: at a multiple of eight, with its 16 bytes before the last byte of the
asset, and with two display lists, at distances 8 and 12, that are the same word. -/
structure LimbAt (asset : Bytes) (limb : Nat) : Prop where
  /-- The limb is aligned. -/
  aligned : limb % 8 = 0
  /-- The limb lies in the asset. -/
  room : limb + 16 < asset.length
  /-- The near and the far display list agree. -/
  lists : ∃ list, Bytes.word? asset (limb + 8) = some list ∧
    Bytes.word? asset (limb + 12) = some list

/-- The four bytes at `slot` are the address of a limb: a byte with the number of the segment, and
the offset of the limb in the three others. -/
structure SlotAt (asset : Bytes) (slot : Nat) : Prop where
  /-- The first byte is the number of the segment. -/
  segment : asset[slot]? = some 6
  /-- The low 24 bits are the offset of a limb. -/
  limb : ∃ address, Bytes.word? asset slot = some address ∧ LimbAt asset (address % 0x1000000)

/-- A skeleton header stands at `o`. -/
structure HeaderAt (asset : Bytes) (o : Nat) : Prop where
  /-- The twelve bytes of the header lie in the asset. -/
  room : o + 12 ≤ asset.length
  /-- The two counts, 21 limbs and 18 of them drawn, stand behind the first word. -/
  counts : Bytes.slice? asset (o + 4) 8 = some [0x15, 0, 0, 0, 0x12, 0, 0, 0]
  /-- The low 24 bits of the first word are the offset of an aligned table of 21 slots. -/
  table : ∃ address, Bytes.word? asset o = some address ∧ address % 0x1000000 % 8 = 0 ∧
    address % 0x1000000 + 0x54 < asset.length ∧
    ∀ i < 21, SlotAt asset (address % 0x1000000 + 4 * i)

/-! ### The examination decides the format -/

/-- A word whose first byte is the number of the segment is an address of the segment. -/
theorem id_of_first {address : Nat} (haddress : Bytes.word? asset slot = some address)
    (hfirst : asset[slot]? = some 6) : address / Segment.size = Segment.id := by
  have hbyte : asset[slot]? = some (UInt8.ofNat (address / 256 / 256 / 256)) :=
    Bytes.getElem?_of_word? haddress (by decide : 0 < 4)
  have hsix : UInt8.ofNat (address / 256 / 256 / 256) = 6 :=
    Option.some.inj (hbyte.symm.trans hfirst)
  have hvalue := congrArg UInt8.toNat hsix
  have hlimit := Bytes.lt_of_word? haddress
  rw [UInt8.toNat_ofNat'] at hvalue
  simp only [Bytes.wordLimit] at hlimit
  simp only [Segment.size, Segment.id]
  change address / 256 / 256 / 256 % 256 = 6 at hvalue
  omega

theorem isLimb?_eq_true_iff_slotAt : isLimb? asset slot = some true ↔ SlotAt asset slot := by
  constructor
  · intro h
    obtain ⟨address, list, haddress, -, hplaced, hnear, hfar⟩ := isLimb?_eq_true_iff.mp h
    obtain ⟨hroom, haligned⟩ := isPlaced_iff.mp hplaced
    exact ⟨first_of_slot h, address, haddress, haligned, hroom, list, hnear, hfar⟩
  · rintro ⟨hfirst, address, haddress, haligned, hroom, list, hnear, hfar⟩
    refine isLimb?_eq_true_iff.mpr ⟨address, list, haddress, id_of_first haddress hfirst, ?_,
      hnear, hfar⟩
    exact isPlaced_iff.mpr ⟨hroom, haligned⟩

/-- A header stands where the counts do and the examination goes well. -/
theorem headerAt_iff :
    HeaderAt asset o ↔
      Bytes.slice? asset (o + 4) countPattern.length = some countPattern ∧
        examine? asset (o : Int) = some .sound := by
  rw [examine?_eq_sound_iff]
  simp only [isLimb?_eq_true_iff_slotAt, isPlaced_iff, Nat.mul_comm _ slotSize]
  constructor
  · rintro ⟨hroom, hcounts, address, haddress, haligned, htable, hslots⟩
    exact ⟨hcounts, hroom, address, haddress, ⟨htable, haligned⟩, hslots⟩
  · rintro ⟨hcounts, hroom, address, haddress, ⟨htable, haligned⟩, hslots⟩
    exact ⟨hroom, hcounts, address, haddress, haligned, htable, hslots⟩

/-! ### Places that pass -/

/-- The counts stand at a place as they would in a header, and the examination of it goes well. -/
def Passes (asset : Bytes) (place : Int) : Prop :=
  (∃ p : Nat, (p : Int) = place + 4 ∧
      Bytes.slice? asset p countPattern.length = some countPattern) ∧
    (isHeader asset place).result = .ok true

theorem result_isHeader_eq_true_iff :
    (isHeader asset place).result = .ok true ↔ examine? asset place = some .sound := by
  rw [result_isHeader, Except.ok.injEq, decide_eq_true_iff]

/-- In front of an asset there is no room for a header. -/
theorem nonneg_of_sound (h : examine? asset place = some .sound) : 0 ≤ place := by
  by_contra hneg
  rw [examine?, if_pos (.inl (by omega))] at h
  cases h

/-- The places that pass are those at which a header stands. -/
theorem passes_iff : Passes asset place ↔ ∃ o : Nat, place = o ∧ HeaderAt asset o := by
  constructor
  · rintro ⟨⟨p, hp, hcounts⟩, hheader⟩
    rw [result_isHeader_eq_true_iff] at hheader
    obtain ⟨o, rfl⟩ := Int.eq_ofNat_of_zero_le (nonneg_of_sound hheader)
    obtain rfl : p = o + 4 := by omega
    exact ⟨o, rfl, headerAt_iff.mpr ⟨hcounts, hheader⟩⟩
  · rintro ⟨o, rfl, ho⟩
    obtain ⟨hcounts, hsound⟩ := headerAt_iff.mp ho
    exact ⟨⟨o + 4, by omega, hcounts⟩, result_isHeader_eq_true_iff.mpr hsound⟩

/-! ### The search -/

/-- A header is found if one stands anywhere, at its place or before. -/
theorem exists_find_le_of_passes (h : Passes asset place) :
    ∃ found : Nat, (found : Int) ≤ place ∧ (find asset).result = .ok (some found) := by
  obtain ⟨o, rfl, ho⟩ := passes_iff.mp h
  obtain ⟨hcounts, hsound⟩ := headerAt_iff.mp ho
  obtain ⟨found, hle, hfind⟩ := exists_find_le hcounts hsound
  exact ⟨found, by omega, hfind⟩

/-- **The search finds the first header.** A place passes exactly if a header stands there. The
search comes to an end: with a header such that no place before it passes, of which exactly the
twelve bytes are taken, or with nothing if no place passes at all, and then the asset is refused. No
place, not even one outside the asset, is examined with a read outside the bytes. -/
theorem search_finds_first (asset : Bytes) :
    (∀ place : Int, Passes asset place ↔ ∃ o : Nat, place = o ∧ HeaderAt asset o) ∧
      ((∃ o header, (find asset).result = .ok (some o) ∧ HeaderAt asset o ∧
          (∀ place < (o : Int), ¬ Passes asset place) ∧
          Bytes.slice? asset o 12 = some header ∧
          ∀ name, (locate name asset).result = .ok ⟨o, header⟩) ∨
        ((find asset).result = .ok none ∧ (∀ place, ¬ Passes asset place) ∧
          ∀ name, (locate name asset).result =
            .error (.refused ⟨.missing (.skeleton name), none⟩))) ∧
      ∀ place : Int, ∃ verdict, (isHeader asset place).result = .ok verdict := by
  refine ⟨fun place => passes_iff, ?_, fun place => ⟨_, result_isHeader asset place⟩⟩
  cases hfound : (candidates asset).find? fun o : Nat =>
      decide (examine? asset (o : Int) = some .sound) with
  | some o =>
    have hfind : (find asset).result = .ok (some o) := by
      rw [result_find, hfound]
    have hheader : HeaderAt asset o := headerAt_iff.mpr (sound_of_find hfind)
    refine .inl ⟨o, (asset.drop o).take headerSize, hfind, hheader, ?_,
      Bytes.slice?_eq_some_of_le hheader.room, fun name => locate_eq_ok_iff.mpr ⟨hfind, rfl⟩⟩
    intro place hlt hpasses
    obtain ⟨found, hle, hother⟩ := exists_find_le_of_passes hpasses
    obtain rfl : o = found := Option.some.inj (Except.ok.inj (hfind.symm.trans hother))
    omega
  | none =>
    have hfind : (find asset).result = .ok none := by
      rw [result_find, hfound]
    refine .inr ⟨hfind, ?_, ?_⟩
    · intro place hpasses
      obtain ⟨found, -, hother⟩ := exists_find_le_of_passes hpasses
      rw [hfind] at hother
      cases hother
    · intro name
      rw [locate, Build.result_bind, hfind]
      rfl

end Skeleton

end ModelPatch

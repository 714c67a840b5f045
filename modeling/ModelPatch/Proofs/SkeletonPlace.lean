import Mathlib
import ModelPatch.Proofs.PatchFrame

/-!
# Where the skeleton of a patch is

The skeleton is looked for in the whole asset, and its trailer is cut off afterwards. So nothing
but the bytes of the trailer themselves can keep the skeleton out of the trailer. The bytes of the
marker do. No slot of a limb table starts inside the marker, because the first byte of a slot is the
number of the segment; and the two display lists of a limb do not lie in the marker, because they
agree, and no four bytes of the marker are followed by the same four. What comes behind the marker
is not protected, and the whole skeleton may be there. Then it is cut off, and the header that is
copied into the patch points to nothing.

## Main results

* `Trailer.table_place`: a limb table ends where the marker starts, or starts behind it;
* `Trailer.limb_place`: and so does a limb, but for its far display list;
* `Patch.skeleton_place`: where the skeleton of a patch is in the asset it was built from;
* `Patch.skeleton_cut_off`: it need not be in the part that is kept.
-/

namespace ModelPatch

/-! ### Slots and limbs -/

namespace Skeleton

variable {asset : Bytes} {slot : Nat}

/-- The first byte of a slot is the number of the segment. -/
theorem first_of_slot (h : isLimb? asset slot = some true) : asset[slot]? = some 6 := by
  obtain ⟨address, list, haddress, hid, -⟩ := isLimb?_eq_true_iff.mp h
  have hbyte : UInt8.ofNat (address / 256 / 256 / 256) = 6 := by
    rw [Nat.div_div_eq_div_mul, Nat.div_div_eq_div_mul]
    exact congrArg UInt8.ofNat hid
  rw [← hbyte]
  exact Bytes.getElem?_of_word? haddress (by decide : 0 < 4)

/-- The last byte of a slot is a multiple of eight. -/
theorem last_of_slot (h : isLimb? asset slot = some true) :
    ∃ b, asset[slot + 3]? = some b ∧ b.toNat % 8 = 0 := by
  obtain ⟨address, list, haddress, -, hplaced, -, -⟩ := isLimb?_eq_true_iff.mp h
  have haligned : Segment.offset address % 8 = 0 := (isPlaced_iff.mp hplaced).2
  refine ⟨UInt8.ofNat address, Bytes.getElem?_of_word? haddress (by decide : 3 < 4), ?_⟩
  rw [UInt8.toNat_ofNat']
  simp only [Segment.offset, Segment.size] at haligned
  omega

/-- The limb of a slot lies in the asset, and its two display lists have the same bytes. -/
theorem exists_limb_of_slot (h : isLimb? asset slot = some true) :
    ∃ address, Bytes.word? asset slot = some address ∧
      Segment.offset address + limbSize < asset.length ∧
      ∀ k < 4, asset[Segment.offset address + nearDistance + k]? =
        asset[Segment.offset address + farDistance + k]? := by
  obtain ⟨address, list, haddress, -, hplaced, hnear, hfar⟩ := isLimb?_eq_true_iff.mp h
  refine ⟨address, haddress, (isPlaced_iff.mp hplaced).1, ?_⟩
  intro k hk
  rw [Bytes.getElem?_of_word? hnear hk, Bytes.getElem?_of_word? hfar hk]

end Skeleton

/-! ### The marker -/

namespace Trailer

variable {asset : Bytes} {m : Nat}

/-- The bytes of the marker stand where the trailer starts. -/
theorem getElem?_of_find? (hm : find? asset = some m) {i : Nat} (hle : m ≤ i) (hlt : i < m + 15) :
    asset[i]? = marker[i - m]? := by
  obtain ⟨-, hmarker, -⟩ := find?_eq_some_iff.mp hm
  rw [Bytes.isPrefix_drop_iff_slice?] at hmarker
  have hbyte := (Bytes.slice?_eq_some_iff_getElem?.mp hmarker).2 (i - m)
    (by rw [length_marker]; omega)
  rwa [Nat.add_sub_cancel' hle] at hbyte

/-- No byte of the marker is the number of the segment. -/
theorem marker_ne_segment : ∀ k < 15, marker[k]? ≠ some 6 := by
  decide +kernel

/-- No byte of the marker comes again four bytes later. -/
theorem marker_ne_later : ∀ k < 11, marker[k]? ≠ marker[k + 4]? := by
  decide +kernel

/-- The bytes of the marker that would be the last byte of a slot, if one or three of its bytes
belonged to the slot, are no multiples of eight. -/
theorem marker_unaligned : ∀ k ∈ [0, 2], ∀ b, marker[k]? = some b → b.toNat % 8 ≠ 0 := by
  decide +kernel

/-- **A limb table ends where the marker starts, or starts behind the marker.** The only other case
is that the last two bytes of the table are the first two of the marker. -/
theorem table_place (hm : find? asset = some m) {table : Nat}
    (hslots : ∀ i < Skeleton.limbCount,
      Skeleton.isLimb? asset (table + i * Skeleton.slotSize) = some true) :
    table + Skeleton.tableSize ≤ m ∨ table + Skeleton.tableSize = m + 2 ∨
      m + marker.length ≤ table := by
  simp only [Skeleton.limbCount, Skeleton.slotSize, Skeleton.tableSize, length_marker] at *
  by_contra hplace
  -- no slot starts inside the marker
  have hstart : ∀ i < 21, ¬ (m ≤ table + i * 4 ∧ table + i * 4 < m + 15) := by
    rintro i hi ⟨hle, hlt⟩
    have hfirst := Skeleton.first_of_slot (hslots i hi)
    rw [getElem?_of_find? hm hle hlt] at hfirst
    exact marker_ne_segment _ (by omega) hfirst
  -- so the marker starts inside the last slot, behind its first byte
  have hlast : table + 80 < m := by
    by_contra hle
    exact hstart ((m - table + 3) / 4) (by omega) (by omega)
  obtain ⟨b, hb, haligned⟩ := Skeleton.last_of_slot (hslots 20 (by decide))
  rw [getElem?_of_find? hm (by omega) (by omega)] at hb
  have hk : table + 20 * 4 + 3 - m ∈ [0, 2] := by
    simp only [List.mem_cons, List.not_mem_nil, or_false]
    omega
  exact marker_unaligned _ hk b hb haligned

/-- **A limb lies before the marker, but for its far display list, or behind its first bytes.** -/
theorem limb_place (hm : find? asset = some m) {limb : Nat}
    (hlists : ∀ k < 4, asset[limb + Skeleton.nearDistance + k]? =
      asset[limb + Skeleton.farDistance + k]?) :
    limb + Skeleton.limbSize ≤ m + 4 ∨ m + 3 ≤ limb := by
  simp only [Skeleton.nearDistance, Skeleton.farDistance, Skeleton.limbSize] at *
  by_contra hplace
  -- a byte of the near display list and the same byte of the far one lie in the marker
  have hk : m - (limb + 8) < 4 := by omega
  have hnear := getElem?_of_find? hm (i := limb + 8 + (m - (limb + 8))) (by omega) (by omega)
  have hfar := getElem?_of_find? hm (i := limb + 12 + (m - (limb + 8))) (by omega) (by omega)
  have hshift : limb + 12 + (m - (limb + 8)) - m = limb + 8 + (m - (limb + 8)) - m + 4 := by omega
  rw [hshift] at hfar
  exact marker_ne_later _ (by omega) (hnear.symm.trans ((hlists _ hk).trans hfar))

end Trailer

/-! ### Patches -/

namespace Patch

variable {source : Manifest.Source} {asset : Bytes} {name file placeholder : String} {p : Patch}

/-- **Where the skeleton is.** The limb table and all limbs of a patch lie in the asset that it was
built from, with its trailer. The limb table ends where the marker starts, or two bytes behind, or
else it starts behind the marker. Each limb ends no more than four bytes behind the start of the
marker, or else it starts at least three bytes behind it. -/
theorem skeleton_place (h : (build source asset name file placeholder).result = .ok p) :
    ∃ m, Trailer.find? asset = some m ∧
      p.skeleton.tableOffset + Skeleton.tableSize < asset.length ∧
      (p.skeleton.tableOffset + Skeleton.tableSize ≤ m ∨
        p.skeleton.tableOffset + Skeleton.tableSize = m + 2 ∨
        m + Trailer.marker.length ≤ p.skeleton.tableOffset) ∧
      ∀ i < Skeleton.limbCount, ∃ limb,
        Skeleton.limbAt? asset p.skeleton.tableOffset i = some limb ∧
        limb + Skeleton.limbSize < asset.length ∧
        (limb + Skeleton.limbSize ≤ m + 4 ∨ m + 3 ≤ limb) := by
  obtain ⟨s⟩ := build_eq_ok_iff.mp h
  obtain ⟨m, hm⟩ := s.exists_find?
  obtain ⟨hplaced, hslots⟩ := Skeleton.slots_of_locate s.skeleton_eq
  refine ⟨m, hm, (Skeleton.isPlaced_iff.mp hplaced).1, Trailer.table_place hm hslots, ?_⟩
  intro i hi
  obtain ⟨address, haddress, hroom, hlists⟩ := Skeleton.exists_limb_of_slot (hslots i hi)
  have hlimb : Skeleton.limbAt? asset p.skeleton.tableOffset i = some (Segment.offset address) := by
    rw [Skeleton.limbAt?, haddress, Option.map_some]
  exact ⟨Segment.offset address, hlimb, hroom, Trailer.limb_place hm hlists⟩

/-- The small asset keeps its skeleton: the limb table and the only limb end before the trailer. -/
theorem skeleton_place_tiny :
    tinyPatch.skeleton.tableOffset + Skeleton.tableSize ≤ 0x71 ∧
      ∀ i < Skeleton.limbCount, ∃ limb, Skeleton.limbAt? tinyAsset 0 i = some limb ∧
        limb + Skeleton.limbSize ≤ 0x75 := by
  have hoffset : tinyPatch.skeleton.tableOffset = 0 := by decide +kernel
  have hzero : ∀ i < Skeleton.limbCount, Skeleton.limbAt? tinyAsset 0 i = some 0 := by
    decide +kernel
  obtain ⟨m, hm, -, htable, hlimbs⟩ := skeleton_place tiny_builds
  obtain rfl : m = 0x71 := Option.some.inj (hm.symm.trans tiny_find?)
  rw [hoffset] at htable hlimbs ⊢
  refine ⟨htable.resolve_right (by decide +kernel), ?_⟩
  intro i hi
  obtain ⟨limb, hlimb, -, hplace⟩ := hlimbs i hi
  obtain rfl : limb = 0 := Option.some.inj (hlimb.symm.trans (hzero i hi))
  exact ⟨0, hlimb, hplace.resolve_right (by decide)⟩

/-! ### A skeleton behind the trailer

The header stands in front of the trailer and the limb table behind it, where each of its slots
points to the table itself. -/

/-- An asset whose skeleton stands behind its trailer. -/
def cutAsset : Bytes :=
  [6, 0, 0, 0x20] ++ Skeleton.countPattern ++ Trailer.marker ++ [0, 0, 0, 0, 0] ++
    (List.replicate 21 [6, 0, 0, 0x20]).flatten ++ [0]

/-- A manifest with an empty dictionary and an empty pool. -/
def cutSource : Manifest.Source :=
  .text "DICTIONARY\nEND\nOBJECT POOL=0,C\nEND".toList

/-- The patch of that asset: nothing but the header and the placeholder. -/
def cutPatch : Patch where
  name := "tail"
  region := ⟨0, 0xC⟩
  table := [6, 0, 0, 0x20] ++ Skeleton.countPattern
  skeleton := ⟨0, [6, 0, 0, 0x20] ++ Skeleton.countPattern⟩
  trailer := .empty
  symbols := ⟨⟨[("DL_DF_COMMAND", .resolved 0xC)], by decide⟩, "DL_DF_COMMAND"⟩
  output := [6, 0, 0, 0x20] ++ Skeleton.countPattern ++ placeholderCommand

/-- **A skeleton can be cut off.** The limb table of this patch stood behind the trailer, and so did
all limbs. The patch ends before the offset to which its header points. -/
theorem skeleton_cut_off :
    (build cutSource cutAsset "tail").result = .ok cutPatch ∧
      Trailer.find? cutAsset = some 0xC ∧
      cutPatch.skeleton.tableOffset = 0x20 ∧ cutPatch.output.length = 0x14 ∧
      ¬ cutPatch.skeleton.tableOffset + Skeleton.tableSize ≤ 0xC ∧
      ∀ i < Skeleton.limbCount,
        Skeleton.limbAt? cutAsset cutPatch.skeleton.tableOffset i = some 0x20 ∧
          ¬ 0x20 + Skeleton.limbSize ≤ 0xC := by
  decide +kernel

end Patch

end ModelPatch

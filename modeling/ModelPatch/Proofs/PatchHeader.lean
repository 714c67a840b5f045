import Mathlib
import ModelPatch.Proofs.PatchFrame

/-!
# The skeleton header of a patch

A patch carries the skeleton header of its asset a second time, at the end of the table, where the
renderer looks for it. The copy points to the same limb table and through it to the same limbs, so
it is as good as the original as long as the patch has not changed these. What the examination of a
header reads is known (`Skeleton.sound_of_agreeOn`), and so is what a patch leaves alone
(`Patch.Stages.agreeOn_output`). Here the two are put together.

## Main definitions

* `Patch.Spares`: a range of the asset that a patch leaves alone.

## Main results

* `Patch.Stages.examine?_header`: the copy of the header is sound if limb table and limbs are
  spared;
* `Patch.header_works`: it is then found, or another before it.
-/

namespace ModelPatch.Patch

variable {source : Manifest.Source} {asset : Bytes} {name file placeholder : String} {p : Patch}
  {m : Nat}

/-- A patch of an asset whose trailer starts at `m` spares a range if the range ends before the
trailer and has no byte in common with the table. -/
def Spares (p : Patch) (m offset size : Nat) : Prop :=
  offset + size ≤ m ∧
    (offset + size ≤ p.region.offset ∨ p.region.offset + p.table.length ≤ offset)

instance (p : Patch) (m offset size : Nat) : Decidable (p.Spares m offset size) :=
  inferInstanceAs (Decidable (_ ∧ _))

/-- What is spared is still there, and does not end with the patched asset. -/
theorem Stages.agreeOn_of_spares (s : Stages source asset name file placeholder p)
    (hm : Trailer.find? asset = some m) {offset size : Nat} (h : p.Spares m offset size) :
    Bytes.AgreeOn p.output asset offset size ∧ offset + size < p.output.length := by
  obtain ⟨hbefore, houtside⟩ := h
  refine ⟨s.agreeOn_output hm hbefore houtside, ?_⟩
  rw [s.length_output hm]
  omega

/-- The copy of the header is sound if limb table and limbs are spared. -/
theorem Stages.examine?_header (s : Stages source asset name file placeholder p)
    (hm : Trailer.find? asset = some m)
    (htable : p.Spares m p.skeleton.tableOffset Skeleton.tableSize)
    (hlimbs : ∀ i < Skeleton.limbCount, ∀ limb,
      Skeleton.limbAt? asset p.skeleton.tableOffset i = some limb →
        p.Spares m limb Skeleton.limbSize)
    {q : Nat} (hq : q + Skeleton.headerSize = p.region.offset + p.table.length)
    (hheader : Bytes.slice? p.output q Skeleton.headerSize = some p.skeleton.header) :
    Skeleton.examine? p.output (q : Int) = some .sound := by
  obtain ⟨hfind, -⟩ := Skeleton.locate_eq_ok_iff.mp s.skeleton_eq
  obtain ⟨address, hword, htableOffset⟩ := Skeleton.exists_address_of_locate s.skeleton_eq
  -- The same first word stands at the original and at the copy.
  have hasset : Bytes.word? asset p.skeleton.offset = some address :=
    Bytes.word?_of_slice? (Skeleton.slice?_of_locate s.skeleton_eq) hword
  have hplace : Bytes.word? p.output q = some address := Bytes.word?_of_slice? hheader hword
  have hroom : q + Skeleton.headerSize ≤ p.output.length := by
    rw [hq, s.length_output hm]
    exact s.table_end_le hm
  rw [htableOffset] at htable hlimbs
  refine Skeleton.sound_of_agreeOn (Skeleton.sound_of_find hfind).2 hasset hplace hroom
    (s.agreeOn_of_spares hm htable) ?_
  intro i hi limb hlimb
  exact s.agreeOn_of_spares hm (hlimbs i hi limb hlimb)

/-- **The header of a patch works.** If a patch spares the limb table and the limbs of its asset, a
header with the right counts stands at the end of the table and is sound, and so the search for a
skeleton in the patched asset ends there or before. -/
theorem header_works (h : (build source asset name file placeholder).result = .ok p)
    (hm : Trailer.find? asset = some m)
    (htable : p.Spares m p.skeleton.tableOffset Skeleton.tableSize)
    (hlimbs : ∀ i < Skeleton.limbCount, ∀ limb,
      Skeleton.limbAt? asset p.skeleton.tableOffset i = some limb →
        p.Spares m limb Skeleton.limbSize) :
    ∃ q, q + 12 = p.region.offset + p.table.length ∧
      Bytes.slice? p.output (q + 4) 8 = some Skeleton.countPattern ∧
      (Skeleton.isHeader p.output q).result = .ok true ∧
      ∃ o ≤ q, (Skeleton.find p.output).result = .ok (some o) := by
  obtain ⟨s⟩ := build_eq_ok_iff.mp h
  obtain ⟨q, hq, -, hheader, hcounts⟩ := s.exists_counts_start
  have hsound := s.examine?_header hm htable hlimbs hq hheader
  refine ⟨q, hq, hcounts, ?_, Skeleton.exists_find_le hcounts hsound⟩
  rw [Skeleton.result_isHeader, hsound]
  rfl

/-- The small patch spares limb table and limbs. The copy of the header stands at `0x6D`. -/
theorem header_works_tiny :
    tinyPatch.Spares 0x71 tinyPatch.skeleton.tableOffset Skeleton.tableSize ∧
      Bytes.slice? tinyPatch.output 0x71 8 = some Skeleton.countPattern ∧
      (Skeleton.isHeader tinyPatch.output 0x6D).result = .ok true ∧
      ∃ o ≤ 0x6D, (Skeleton.find tinyPatch.output).result = .ok (some o) := by
  have htable : tinyPatch.Spares 0x71 tinyPatch.skeleton.tableOffset Skeleton.tableSize := by
    decide +kernel
  have hlimbs : ∀ i < Skeleton.limbCount,
      ∀ limb ∈ Skeleton.limbAt? tinyAsset tinyPatch.skeleton.tableOffset i,
        tinyPatch.Spares 0x71 limb Skeleton.limbSize := by
    decide +kernel
  obtain ⟨q, hq, hrest⟩ := header_works tiny_builds tiny_find? htable hlimbs
  have hend : tinyPatch.region.offset + tinyPatch.table.length = 0x79 := rfl
  obtain rfl : q = 0x6D := by omega
  exact ⟨htable, hrest⟩

end ModelPatch.Patch

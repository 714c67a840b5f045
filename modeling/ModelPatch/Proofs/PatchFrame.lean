import Mathlib
import ModelPatch.Proofs.PatchStages

/-!
# What a patch changes

A patch is an asset that was cut at its trailer, lengthened by the placeholder and written over with
a table. Three steps move bytes, and this file says where every byte of the result comes from: from
the table in the region of the table, from the asset before the trailer, and from the placeholder
behind that. Nothing of the trailer is left, and nothing is shifted.

The skeleton header stands at the end of the table, so it is also found at the end of the region.

## Main results

* `Patch.Stages.getElem?_output`: where each byte of a patched asset comes from;
* `Patch.Stages.agreeOn_output`: outside the table the patched asset is the asset;
* `Patch.Stages.exists_header_start`: the table ends in the skeleton header;
* `Patch.output_frame`: the three cases, for every build that succeeds.
-/

namespace ModelPatch.Patch

variable {source : Manifest.Source} {asset : Bytes} {name file placeholder : String} {p : Patch}
  {m : Nat}

/-! ### Reads in a patched asset -/

/-- There is a trailer in an asset that is patched. -/
theorem Stages.exists_find? (s : Stages source asset name file placeholder p) :
    ∃ m, Trailer.find? asset = some m :=
  Trailer.exists_find?_of_parse s.trailer_eq

/-- A patched asset is the trimmed asset and the placeholder, with the table written over them. -/
theorem Stages.output_eq_splice (s : Stages source asset name file placeholder p)
    (hm : Trailer.find? asset = some m) :
    p.region.offset + p.table.length ≤ (asset.take m ++ placeholderCommand).length ∧
      p.output = Bytes.splice (asset.take m ++ placeholderCommand) p.region.offset
        ((p.region.offset : Int) + p.table.length) p.table := by
  have houtput := overlay_eq_ok_iff.mp s.output_eq
  rwa [← s.patch_region, ← s.patch_table, Trailer.trim_of_find? hm] at houtput

theorem length_body (hm : Trailer.find? asset = some m) :
    (asset.take m ++ placeholderCommand).length = m + 8 := by
  rw [List.length_append, ← Trailer.trim_of_find? hm, Trailer.length_trim hm]
  rfl

/-- The table ends in the patched asset. -/
theorem Stages.table_end_le (s : Stages source asset name file placeholder p)
    (hm : Trailer.find? asset = some m) : p.region.offset + p.table.length ≤ m + 8 := by
  rw [← length_body hm]
  exact (s.output_eq_splice hm).1

theorem Stages.length_output (s : Stages source asset name file placeholder p)
    (hm : Trailer.find? asset = some m) : p.output.length = m + 8 := by
  obtain ⟨hle, houtput⟩ := s.output_eq_splice hm
  rw [houtput, Bytes.length_splice hle, length_body hm]

/-- **Where each byte comes from**: the table, the asset before its trailer, or the placeholder. -/
theorem Stages.getElem?_output (s : Stages source asset name file placeholder p)
    (hm : Trailer.find? asset = some m) (i : Nat) :
    p.output[i]? =
      if p.region.offset ≤ i ∧ i < p.region.offset + p.table.length then
        p.table[i - p.region.offset]?
      else if i < m then asset[i]?
      else placeholderCommand[i - m]? := by
  obtain ⟨hle, houtput⟩ := s.output_eq_splice hm
  have hlen : (asset.take m).length = m := by
    rw [← Trailer.trim_of_find? hm, Trailer.length_trim hm]
  rw [houtput, Bytes.getElem?_splice hle]
  refine if_congr Iff.rfl rfl ?_
  by_cases hi : i < m
  · rw [if_pos hi, List.getElem?_append_left (by omega), List.getElem?_take_of_lt hi]
  · rw [if_neg hi, List.getElem?_append_right (by omega), hlen]

/-- The table is found where it was written. -/
theorem Stages.slice?_output (s : Stages source asset name file placeholder p) :
    Bytes.slice? p.output p.region.offset p.table.length = some p.table := by
  obtain ⟨m, hm⟩ := s.exists_find?
  obtain ⟨hle, houtput⟩ := s.output_eq_splice hm
  rw [houtput]
  exact Bytes.slice?_splice hle

/-- **Outside the table nothing changes**: a range before the trailer that the table does not reach
holds what it held in the asset. -/
theorem Stages.agreeOn_output (s : Stages source asset name file placeholder p)
    (hm : Trailer.find? asset = some m) {offset width : Nat} (hbefore : offset + width ≤ m)
    (houtside : offset + width ≤ p.region.offset ∨
      p.region.offset + p.table.length ≤ offset) :
    Bytes.AgreeOn p.output asset offset width := by
  intro k hk
  rw [s.getElem?_output hm, if_neg (by omega), if_pos (by omega)]

/-! ### The end of the table -/

/-- The table ends in the skeleton header. -/
theorem Stages.exists_header_start (s : Stages source asset name file placeholder p) :
    ∃ q, q + Skeleton.headerSize = p.region.offset + p.table.length ∧ p.region.offset ≤ q ∧
      Bytes.slice? p.output q Skeleton.headerSize = some p.skeleton.header := by
  obtain ⟨front, -, -, htable⟩ := AliasTable.build_eq_ok_iff.mp s.table_eq
  have hheader : p.skeleton.header.length = Skeleton.headerSize :=
    (Bytes.slice?_eq_some_iff.mp (Skeleton.slice?_of_locate s.skeleton_eq)).2
  have hp : p.table = front.data ++ p.skeleton.header := by rw [s.patch_table, htable]
  refine ⟨p.region.offset + front.data.length, ?_, Nat.le_add_right _ _, ?_⟩
  · rw [hp, List.length_append, hheader, Nat.add_assoc]
  · refine Bytes.slice?_trans s.slice?_output ?_
    rw [hp, ← hheader]
    exact Bytes.slice?_eq_some_iff.mpr ⟨by rw [List.drop_left, List.take_length], rfl⟩

/-- The last eight bytes of the table are the counts of the skeleton header. -/
theorem Stages.exists_counts_start (s : Stages source asset name file placeholder p) :
    ∃ q, q + Skeleton.headerSize = p.region.offset + p.table.length ∧ p.region.offset ≤ q ∧
      Bytes.slice? p.output q Skeleton.headerSize = some p.skeleton.header ∧
      Bytes.slice? p.output (q + 4) Skeleton.countPattern.length =
        some Skeleton.countPattern := by
  obtain ⟨q, hq, hle, hheader⟩ := s.exists_header_start
  exact ⟨q, hq, hle, hheader, Bytes.slice?_trans hheader (Skeleton.counts_of_locate s.skeleton_eq)⟩

/-! ### The frame -/

/-- **The frame of a build.** A patched asset ends eight bytes behind where the trailer of the asset
starts, and each of its bytes comes from the table, from the asset before the trailer, or from the
placeholder. What stands in the trailer has an effect only through the table: assets that are the
same before their trailers, patched with the same table at the same offset, give the same result. -/
theorem output_frame (h : (build source asset name file placeholder).result = .ok p) :
    ∃ m, Trailer.find? asset = some m ∧
      (Trailer.marker <+: asset.drop m ∧ ∀ k < m, ¬ Trailer.marker <+: asset.drop k) ∧
      p.output.length = m + 8 ∧
      p.region.offset + p.table.length ≤ m + 8 ∧
      (∀ i < m + 8, p.output[i]? =
        if p.region.offset ≤ i ∧ i < p.region.offset + p.table.length then
          p.table[i - p.region.offset]?
        else if i < m then asset[i]?
        else placeholderCommand[i - m]?) ∧
      ∀ (source' : Manifest.Source) (asset' : Bytes) (name' file' placeholder' : String)
        (p' : Patch), (build source' asset' name' file' placeholder').result = .ok p' →
        Trailer.find? asset' = some m → asset'.take m = asset.take m →
        p'.region.offset = p.region.offset → p'.table = p.table → p'.output = p.output := by
  obtain ⟨s⟩ := build_eq_ok_iff.mp h
  obtain ⟨m, hm⟩ := s.exists_find?
  refine ⟨m, hm, (Trailer.find?_eq_some_iff.mp hm).2, s.length_output hm, s.table_end_le hm, ?_, ?_⟩
  · intro i _
    exact s.getElem?_output hm i
  intro source' asset' name' file' placeholder' p' h' hm' hbefore hoffset htable
  obtain ⟨s'⟩ := build_eq_ok_iff.mp h'
  rw [(s.output_eq_splice hm).2, (s'.output_eq_splice hm').2, hbefore, hoffset, htable]

/-! ### A small asset

A limb table whose slots all point to its own start, the header right behind it, seventeen zero
bytes, and a trailer without records. The pool takes the region from the header to the end of the
placeholder and leaves not a byte of it free. -/

/-- A small asset. -/
def tinyAsset : Bytes :=
  (List.replicate 22 [6, 0, 0, 0]).flatten ++ Skeleton.countPattern ++ List.replicate 17 0 ++
    Trailer.marker ++ [0, 0, 0]

/-- A manifest for the small asset: a group with a single byte in front of a call of itself, a group
without calls, and one that calls a group and a bank object. -/
def tinySource : Manifest.Source :=
  .text <| "DICTIONARY\nDL_B BANK \"b\"\nEND\nOBJECT POOL=54,25\n".toList ++
    "A:HexString(AB);CallList(A)\nE:\nB:CallMatrix(A);CallList(DL_B)\nEND".toList

/-- The table of the small patch. -/
def tinyTable : Bytes :=
  [0xAB, 0xDE, 1, 0, 0, 6, 0, 0, 0x54, 0xDA, 0x38, 0, 0, 6, 0, 0, 0x54, 0xDE, 1, 0, 0, 6, 0, 0,
    0x71, 6, 0, 0, 0, 0x15, 0, 0, 0, 0x12, 0, 0, 0]

/-- The patch of the small asset. -/
def tinyPatch : Patch where
  name := "tiny"
  region := ⟨0x54, 0x25⟩
  table := tinyTable
  skeleton := ⟨0x54, [6, 0, 0, 0] ++ Skeleton.countPattern⟩
  trailer := .empty
  symbols :=
    ⟨⟨[("DL_B", .external), ("DL_DF_COMMAND", .resolved 0x71), ("A", .resolved 0x54),
        ("E", .resolved 0x5D), ("B", .resolved 0x5D)], by decide⟩, "DL_DF_COMMAND"⟩
  output := (List.replicate 21 [6, 0, 0, 0]).flatten ++ tinyTable

theorem tiny_builds : (build tinySource tinyAsset "tiny").result = .ok tinyPatch := by
  decide +kernel

theorem tiny_find? : Trailer.find? tinyAsset = some 0x71 := by
  decide +kernel

/-- The small patch keeps 84 bytes of the asset, and its table covers all the rest. -/
theorem output_frame_tiny :
    tinyPatch.output.length = 0x79 ∧ tinyPatch.region.offset + tinyPatch.table.length ≤ 0x79 ∧
      ∀ i < 0x79, tinyPatch.output[i]? =
        if 0x54 ≤ i ∧ i < 0x54 + tinyTable.length then tinyTable[i - 0x54]?
        else if i < 0x71 then tinyAsset[i]?
        else placeholderCommand[i - 0x71]? := by
  obtain ⟨m, hm, -, hlength, hend, hbytes, -⟩ := output_frame tiny_builds
  obtain rfl : m = 0x71 := Option.some.inj (hm.symm.trans tiny_find?)
  exact ⟨hlength, hend, hbytes⟩

end ModelPatch.Patch

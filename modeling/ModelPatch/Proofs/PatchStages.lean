import Mathlib
import ModelPatch.Patch
import ModelPatch.Proofs.SkeletonSearch
import ModelPatch.Proofs.TableLayout

/-!
# The stages of a build

A build is a chain of steps that stops at the first one that fails. So a patch that is built comes
with everything that was computed on the way: the manifest that was read, the symbols before any
label, the compiled table. `Stages` keeps these together with the step that each of them is the
result of, and `build_eq_ok_iff` says that a build succeeds exactly if it has stages. What is shown
about patches is shown about stages, one step at a time.

## Main definitions

* `Patch.Stages`: what a build computes on its way to a patch.

## Main results

* `Trailer.find?_eq_some_iff`: the trailer starts at the first marker;
* `Patch.result_overlay`, `Patch.overlay_eq_ok_iff`: a table is written if it ends in the body;
* `Patch.build_eq_ok_iff`: a build succeeds exactly if it has stages.
-/

namespace ModelPatch

/-! ### The trailer -/

namespace Trailer

variable {asset : Bytes} {m : Nat}

/-- The trailer starts at the first marker. -/
theorem find?_eq_some_iff :
    find? asset = some m ↔
      m ≤ asset.length ∧ marker <+: asset.drop m ∧ ∀ k < m, ¬ marker <+: asset.drop k :=
  Bytes.firstPosition?_eq_some_iff

theorem trim_of_find? (h : find? asset = some m) : trim asset = asset.take m := by
  rw [trim, h]

theorem length_trim (h : find? asset = some m) : (trim asset).length = m := by
  rw [trim_of_find? h, List.length_take, Nat.min_eq_left (find?_eq_some_iff.mp h).1]

/-- A trailer is read only where there is a marker. -/
theorem exists_find?_of_parse {name : String} {trailer : Trailer}
    (h : (parse name asset).result = .ok trailer) : ∃ m, find? asset = some m := by
  rw [parse] at h
  cases hfind : find? asset with
  | some m => exact ⟨m, rfl⟩
  | none =>
    rw [hfind] at h
    obtain ⟨_, _, hfail⟩ := Build.result_bind_eq_ok_iff.mp h
    cases hfail

end Trailer

namespace Patch

/-! ### The overlay -/

/-- What comes of an overlay: only where the table would end decides. -/
theorem result_overlay (body table : Bytes) (offset : Nat) :
    (overlay body table offset).result =
      if offset + table.length ≤ body.length then
        .ok (Bytes.splice body offset ((offset : Int) + table.length) table)
      else
        .error (.refused
          ⟨.overflow (.asset offset ((offset : Int) + table.length) body.length), none⟩) := by
  rw [overlay]
  by_cases hroom : offset + table.length ≤ body.length
  · rw [if_pos hroom, if_neg (by omega)]
    rfl
  · rw [if_neg hroom, if_pos (by omega)]
    rfl

/-- A table is written if it ends in the body. -/
theorem overlay_eq_ok_iff {body table output : Bytes} {offset : Nat} :
    (overlay body table offset).result = .ok output ↔
      offset + table.length ≤ body.length ∧
        output = Bytes.splice body offset ((offset : Int) + table.length) table := by
  rw [result_overlay]
  split
  · next hroom => rw [Except.ok.injEq, eq_comm, and_iff_right hroom]
  · next hroom => simp [hroom]

/-! ### Stages -/

/-- What a build computes on its way to a patch, each with the step that it is the result of. -/
structure Stages (source : Manifest.Source) (asset : Bytes) (name file placeholder : String)
    (p : Patch) where
  /-- The manifest. -/
  manifest : Manifest
  /-- The symbols before any label is defined. -/
  symbols : SymbolTable
  /-- The compiled table. -/
  table : AliasTable
  /-- The trailer is read in the asset. -/
  trailer_eq : (Trailer.parse name asset).result = .ok p.trailer
  /-- The skeleton is found in the asset. -/
  skeleton_eq : (Skeleton.locate name asset).result = .ok p.skeleton
  /-- The manifest is read in its source. -/
  manifest_eq : (Manifest.parse file source).result = .ok manifest
  /-- The placeholder stands behind the trimmed asset. -/
  symbols_eq : (SymbolTable.ofSources manifest.dictionary p.trailer (Trailer.trim asset).length
    placeholder).result = .ok symbols
  /-- The table is that of the pool, closed by the header of the skeleton. -/
  table_eq : (AliasTable.build manifest.pool symbols p.skeleton.header).result = .ok table
  /-- The table is written over the region of the pool. -/
  output_eq : (overlay (Trailer.trim asset ++ placeholderCommand) table.data
    manifest.pool.region.offset).result = .ok p.output
  /-- The patch has the name of the asset. -/
  patch_name : p.name = name
  /-- The patch has the region of the pool. -/
  patch_region : p.region = manifest.pool.region
  /-- The patch has the bytes of the table. -/
  patch_table : p.table = table.data
  /-- The patch has the symbols of the table. -/
  patch_symbols : p.symbols = table.symbols

variable {source : Manifest.Source} {asset : Bytes} {name file placeholder : String} {p : Patch}

/-- **A build succeeds exactly if it has stages.** -/
theorem build_eq_ok_iff :
    (build source asset name file placeholder).result = .ok p ↔
      Nonempty (Stages source asset name file placeholder p) := by
  rw [build]
  simp only [Build.result_bind_eq_ok_iff, Build.result_note, Build.result_pure, Except.ok.injEq]
  constructor
  · rintro ⟨trailer, htrailer, skeleton, hskeleton, _, _, manifest, hmanifest, symbols, hsymbols,
      table, htable, output, houtput, _, _, rfl⟩
    exact ⟨⟨manifest, symbols, table, htrailer, hskeleton, hmanifest, hsymbols, htable, houtput,
      rfl, rfl, rfl, rfl⟩⟩
  · rintro ⟨s⟩
    refine ⟨p.trailer, s.trailer_eq, p.skeleton, s.skeleton_eq, (), trivial, s.manifest,
      s.manifest_eq, s.symbols, s.symbols_eq, s.table, s.table_eq, p.output, s.output_eq, (),
      trivial, ?_⟩
    change _ = Patch.mk p.name p.region p.table p.skeleton p.trailer p.symbols p.output
    rw [Patch.mk.injEq]
    exact ⟨s.patch_name.symm, s.patch_region.symm, s.patch_table.symm, rfl, rfl,
      s.patch_symbols.symm, rfl⟩

end Patch

end ModelPatch

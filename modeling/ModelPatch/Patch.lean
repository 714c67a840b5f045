import ModelPatch.AliasTable
import ModelPatch.Asset.Skeleton
import ModelPatch.Asset.Trailer
import ModelPatch.Manifest.Basic
import ModelPatch.Symbols.Sources

/-!
# Patches

A patch is built from an asset and a manifest. The trailer of the asset is read and cut off, a
display list that ends at once is appended in its place, and the alias table of the manifest is
written over the region that the manifest declares.

## Main definitions

* `Patch`: a patch and what it was built from;
* `Patch.overlay`: an asset with a table written over it;
* `Patch.build`: the patch of an asset and a manifest.
-/

namespace ModelPatch

/-- A patch and what it was built from. -/
structure Patch where
  /-- The name of the asset. -/
  name : String
  /-- The region that the table was written over. -/
  region : Region
  /-- The bytes of the alias table. -/
  table : Bytes
  /-- The skeleton header of the asset. -/
  skeleton : Skeleton
  /-- The display lists of the asset. -/
  trailer : Trailer
  /-- The symbols, among them the labels of the pool. -/
  symbols : SymbolTable
  /-- The patched asset. -/
  output : Bytes
  deriving DecidableEq

namespace Patch

/-- The display list that ends at once, to which external display lists are redirected. -/
def placeholderCommand : Bytes := [0xDF, 0, 0, 0, 0, 0, 0, 0]

/-- The bytes of `body` with `table` written over them at `offset`, where it must not run past the
end. A negative offset counts from the end. -/
def overlay (body table : Bytes) (offset : Int) : Build Bytes := do
  let stop := offset + table.length
  if (body.length : Int) < stop then
    Build.note .error <|
      s!"Pool region {Hex.showInt offset}-{Hex.showInt stop} outside zobj " ++
        s!"({Hex.showNat body.length})"
    Build.fail (.overflow (.asset offset stop body.length))
  return Bytes.splice body offset stop table

/-- The patch of an asset and a manifest. -/
def build (source : Manifest.Source) (asset : Bytes) (name : String)
    (file : String := Manifest.defaultFile)
    (placeholder : String := SymbolTable.defaultPlaceholder) : Build Patch := do
  let trailer ← Trailer.parse name asset
  let skeleton ← Skeleton.locate name asset
  let body := Trailer.trim asset
  Build.note .debug
    s!"{name}: trimmed to {Hex.showNat body.length} bytes, placeholder appended"
  let manifest ← Manifest.parse file source
  let symbols ← SymbolTable.ofSources manifest.dictionary trailer body.length placeholder
  let table ← AliasTable.build manifest.pool symbols skeleton.header
  let region := manifest.pool.region
  let output ← overlay (body ++ placeholderCommand) table.data region.offset
  Build.note .info <|
    s!"{name}: wrote {Hex.showNat table.data.length} byte alias table at " ++
      s!"{Hex.showNat region.offset}"
  return {
    name, region, skeleton, trailer, output
    table := table.data
    symbols := table.symbols }

end Patch

end ModelPatch

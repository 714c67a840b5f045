import ModelPatch.Disk.Path
import ModelPatch.Patch

/-!
# Listings

The commands that write nothing show a piece of what a build works with, line by line.

## Main definitions

* `Patch.tableLines`: the alias table, eight bytes to a line;
* `Trailer.lines`: the display lists of an asset;
* `Skeleton.lines`: a skeleton header;
* `Patch.writtenLine`: what is said about a patch that was written.
-/

namespace ModelPatch

/-- Pieces of eight bytes, the last of which may be shorter. -/
def rowsOfEight (bytes : Bytes) : List Bytes :=
  match bytes with
  | [] => []
  | b :: bs => (b :: bs.take 7) :: rowsOfEight (bs.drop 7)
termination_by bytes.length
decreasing_by
  simp only [List.length_drop, List.length_cons]
  omega

/-- The lines of a table at an offset: eight bytes to a line, behind the offset of the first. -/
def tableLines (offset : Nat) : List Bytes → List String
  | [] => []
  | row :: rest =>
    (String.ofList (Hex.padded 8 offset) ++ ": " ++ Bytes.hexRow row) ::
      tableLines (offset + 8) rest

/-- The alias table of a patch, eight bytes to a line. -/
def Patch.tableLines (p : Patch) : List String :=
  ModelPatch.tableLines p.region.offset (rowsOfEight p.table)

/-- The display lists of an asset, one to a line, and their number. -/
def Trailer.lines (t : Trailer) : List String :=
  t.entries.map (fun e => s!"{Hex.showPadded e.2}  {e.1}") ++ [s!"{t.size} display list(s)"]

/-- What there is to say about a skeleton header. -/
def Skeleton.lines (s : Skeleton) : List String :=
  [s!"Header:     {Hex.showPadded s.offset}",
    s!"Bytes:      {Bytes.hexRow s.header}",
    s!"Limb table: {Hex.showPadded s.tableOffset}",
    s!"Limbs:      {s.limbs} ({s.drawn} with display lists)"]

/-- The line about a patch that was written to a path. -/
def Patch.writtenLine (p : Patch) (path : Path) : String :=
  s!"Wrote {path.text} (alias table {Hex.showNat p.table.length} of " ++
    s!"{Hex.showNat p.region.size} bytes at {Hex.showNat p.region.offset})"

end ModelPatch

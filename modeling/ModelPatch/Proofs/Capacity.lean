import Mathlib
import ModelPatch.Proofs.FirstOffence
import ModelPatch.Proofs.PatchFrame
import ModelPatch.Proofs.PlaceholderName

/-!
# How much room there is

A table has to fit twice: in the budget that the manifest declares for its pool, and between the
offset of the pool and the end of the asset with its placeholder. Both checks come last in their
step and look at one length only. So the budget has no part in what is assembled: either the groups
are refused, and then for every budget alike, or there is one table, and the budget says yes or no
to it. The end of the asset says yes or no to a table that is within its budget, and both limits may
be reached but not passed.

What a pool is refused for before its size is looked at is never the lack of room, because neither
a label nor a call can be too large. Without this the two sorts of refusal could not be told apart
by their kind.

## Main definitions

* `Patch.Groundwork`: what a build knows when it comes to the table.

## Main results

* `AliasTable.assembled_or_refused`: groups are assembled or refused, and not for lack of room;
* `AliasTable.build_as_budget_varies`: what a pool comes to, as a function of its budget;
* `Patch.Groundwork.result_build`: what a build comes to, in terms of its table;
* `Patch.room_is_exact`: both limits, for all pools and all builds.
-/

namespace ModelPatch

/-! ### The budget of the pool -/

/-- What is held against an item is never the lack of room. -/
theorem Check.kind_ne_of_offence? {c : Check} {e : BuildError} (h : c.offence? = some e) :
    e.cause.kind ≠ .capacity := by
  cases c with
  | label t g =>
    rw [offence?] at h
    split at h
    · obtain rfl := Option.some.inj h
      exact Kind.noConfusion
    · cases h
  | call t placed =>
    cases hresult : (Call.compileText t placed.text).result with
    | ok bytes => simp [offence?, hresult] at h
    | error fault =>
      obtain ⟨cause, rfl, hcause⟩ := Call.failsOnly_compileText t placed.text fault hresult
      rw [offence?_call_of_error hresult] at h
      obtain rfl := Option.some.inj h
      exact hcause.kind_ne

namespace AliasTable

/-- Groups are assembled or refused, and not for lack of room. -/
theorem assembled_or_refused (address : Nat) (t : SymbolTable) (groups : List Group) :
    (∃ table, (assemble address t groups).result = .ok table) ∨
      ∃ e : BuildError, e.cause.kind ≠ .capacity ∧
        (assemble address t groups).result = .error (.refused e) := by
  have hassemble := refusedFor_assemble address t groups
  cases hreason : (Group.checksFrom address t groups).findSome? Check.offence? with
  | none =>
    rw [hreason] at hassemble
    exact .inl hassemble
  | some e =>
    rw [hreason] at hassemble
    obtain ⟨c, -, hc⟩ := List.exists_of_findSome?_eq_some hreason
    exact .inr ⟨e, Check.kind_ne_of_offence? hc, hassemble⟩

/-- **The budget is a verdict.** As a function of the budget, a pool is always refused, for one and
the same reason other than room, or it comes to one table, which is handed out if it fits. -/
theorem build_as_budget_varies (offset : Nat) (groups : List Group) (t : SymbolTable)
    (header : Bytes) :
    (∃ e : BuildError, e.cause.kind ≠ .capacity ∧ ∀ size,
      (build ⟨⟨offset, size⟩, groups⟩ t header).result = .error (.refused e)) ∨
    ∃ table, ∀ size, (build ⟨⟨offset, size⟩, groups⟩ t header).result =
      if table.data.length ≤ size then .ok table
      else .error (.refused ⟨.overflow (.pool table.data.length size), none⟩) := by
  rcases assembled_or_refused offset t groups with ⟨front, hfront⟩ | ⟨e, hkind, he⟩
  · refine .inr ⟨{ front with data := front.data ++ header }, fun size => ?_⟩
    rw [result_build, hfront]
    show (if size < (front.data ++ header).length then _ else _) = _
    by_cases hfits : (front.data ++ header).length ≤ size
    · rw [if_neg (Nat.not_lt.mpr hfits), if_pos hfits]
    · rw [if_pos (Nat.not_le.mp hfits), if_neg hfits]
  · refine .inl ⟨e, hkind, fun size => ?_⟩
    rw [result_build, he]
    rfl

end AliasTable

/-! ### The end of the asset -/

namespace Patch

variable {source : Manifest.Source} {asset : Bytes} {name file placeholder : String}

/-- What a build knows when it comes to the table. -/
structure Groundwork (source : Manifest.Source) (asset : Bytes)
    (name file placeholder : String) where
  /-- The display lists of the asset. -/
  trailer : Trailer
  /-- The skeleton header of the asset. -/
  skeleton : Skeleton
  /-- The manifest. -/
  manifest : Manifest
  /-- The symbols before any label is defined. -/
  symbols : SymbolTable
  /-- The trailer is read in the asset. -/
  trailer_eq : (Trailer.parse name asset).result = .ok trailer
  /-- The skeleton is found in the asset. -/
  skeleton_eq : (Skeleton.locate name asset).result = .ok skeleton
  /-- The manifest is read in its source. -/
  manifest_eq : (Manifest.parse file source).result = .ok manifest
  /-- The placeholder stands behind the trimmed asset. -/
  symbols_eq : (SymbolTable.ofSources manifest.dictionary trailer (Trailer.trim asset).length
    placeholder).result = .ok symbols

namespace Groundwork

variable (g : Groundwork source asset name file placeholder)

/-- Where the table is to be written. -/
def offset : Nat :=
  g.manifest.pool.region.offset

/-- The table that the build comes to. -/
def table : Build AliasTable :=
  AliasTable.build g.manifest.pool g.symbols g.skeleton.header

/-- The patch with a table and an output. -/
def patch (table : AliasTable) (output : Bytes) : Patch where
  name := name
  region := g.manifest.pool.region
  table := table.data
  skeleton := g.skeleton
  trailer := g.trailer
  symbols := table.symbols
  output := output

/-- A build is its table, written over the asset and the placeholder. -/
theorem result_build :
    (build source asset name file placeholder).result =
      g.table.result >>= fun table =>
        (overlay (Trailer.trim asset ++ placeholderCommand) table.data g.offset).result >>=
          fun output => .ok (g.patch table output) := by
  rw [build]
  simp only [Build.result_bind, g.trailer_eq, g.skeleton_eq, g.manifest_eq, Build.result_note]
  show (SymbolTable.ofSources _ _ _ _).result >>= _ = _
  rw [g.symbols_eq]
  rfl

end Groundwork

/-- **Room is exact.** First, for all groups, offsets, symbols and headers, as the budget of the pool
varies: the pool is refused for one and the same reason, which is not the lack of room, or there is
one table that is handed out exactly if it is not larger than the budget, and else refused with its
size and the budget.

Second, for every build that comes to its table: what the table is refused for the build is refused
for. A table within its budget is written over the asset exactly if it ends at most eight bytes, the
length of the placeholder, behind the trimmed asset; else the build is refused with the place where
the table would end and the length that there is. -/
theorem room_is_exact :
    (∀ (offset : Nat) (groups : List Group) (t : SymbolTable) (header : Bytes),
      (∃ e : BuildError, e.cause.kind ≠ .capacity ∧ ∀ size,
        (AliasTable.build ⟨⟨offset, size⟩, groups⟩ t header).result = .error (.refused e)) ∨
      ∃ table, ∀ size, (AliasTable.build ⟨⟨offset, size⟩, groups⟩ t header).result =
        if table.data.length ≤ size then .ok table
        else .error (.refused ⟨.overflow (.pool table.data.length size), none⟩)) ∧
    ∀ (source : Manifest.Source) (asset : Bytes) (name file placeholder : String)
      (g : Groundwork source asset name file placeholder),
      (∀ fault, g.table.result = .error fault →
        (build source asset name file placeholder).result = .error fault) ∧
      ∀ table, g.table.result = .ok table →
        (g.offset + table.data.length ≤ (Trailer.trim asset).length + 8 →
          (build source asset name file placeholder).result = .ok (g.patch table <|
            (Trailer.trim asset ++ placeholderCommand).take g.offset ++ table.data ++
              (Trailer.trim asset ++ placeholderCommand).drop (g.offset + table.data.length))) ∧
        ((Trailer.trim asset).length + 8 < g.offset + table.data.length →
          (build source asset name file placeholder).result =
            .error (.refused ⟨.overflow (.asset g.offset
              ((g.offset + table.data.length : Nat) : Int)
              ((Trailer.trim asset).length + 8)), none⟩)) := by
  refine ⟨AliasTable.build_as_budget_varies, ?_⟩
  intro source asset name file placeholder g
  have hlength : (Trailer.trim asset ++ placeholderCommand).length =
      (Trailer.trim asset).length + 8 := List.length_append
  refine ⟨?_, ?_⟩
  · intro fault hfault
    rw [g.result_build, hfault]
    rfl
  · intro table htable
    refine ⟨?_, ?_⟩
    · intro hroom
      rw [← hlength] at hroom
      rw [g.result_build, htable, ← Bytes.splice_natCast hroom]
      show (overlay _ _ _).result >>= _ = _
      rw [result_overlay, if_pos hroom]
      rfl
    · intro hbeyond
      rw [← hlength] at hbeyond
      rw [g.result_build, htable]
      show (overlay _ _ _).result >>= _ = _
      rw [result_overlay, if_neg (Nat.not_le.mpr hbeyond), hlength]
      rfl

/-- What the small build knows when it comes to the table. -/
def tinyGroundwork : Groundwork tinySource tinyAsset "tiny" Manifest.defaultFile
    SymbolTable.defaultPlaceholder where
  trailer := .empty
  skeleton := tinyPatch.skeleton
  manifest := tinyManifest
  symbols := AliasTable.smallSymbols
  trailer_eq := by decide +kernel
  skeleton_eq := by decide +kernel
  manifest_eq := tiny_parses
  symbols_eq := by decide +kernel

/-- The manifest for the small asset, with the pool one byte further back. -/
def lateSource : Manifest.Source :=
  .text <| "DICTIONARY\nDL_B BANK \"b\"\nEND\nOBJECT POOL=55,25\n".toList ++
    "A:HexString(AB);CallList(A)\nE:\nB:CallMatrix(A);CallList(DL_B)\nEND".toList

/-- What is known of that when it comes to the table. -/
def lateGroundwork : Groundwork lateSource tinyAsset "tiny" Manifest.defaultFile
    SymbolTable.defaultPlaceholder where
  trailer := .empty
  skeleton := tinyPatch.skeleton
  manifest := { tinyManifest with pool := { tinyManifest.pool with region := ⟨0x55, 0x25⟩ } }
  symbols := tinyGroundwork.symbols
  trailer_eq := tinyGroundwork.trailer_eq
  skeleton_eq := tinyGroundwork.skeleton_eq
  manifest_eq := by decide +kernel
  symbols_eq := tinyGroundwork.symbols_eq

/-- The table of the small patch reaches the last byte of the placeholder. One byte further back it
is still within its budget, but there is no room for it. -/
theorem room_is_exact_tiny :
    (0x54 + tinyTable.length = (Trailer.trim tinyAsset).length + 8 ∧
      (build tinySource tinyAsset "tiny").result = .ok tinyPatch) ∧
    (∃ table, lateGroundwork.table.result = .ok table) ∧
      (build lateSource tinyAsset "tiny").result =
        .error (.refused ⟨.overflow (.asset 0x55 0x7A 0x79), none⟩) := by
  have htrim : (Trailer.trim tinyAsset).length = 0x71 := by decide +kernel
  have htable : tinyGroundwork.table.result =
      .ok ⟨tinyTable, [("A", 0x54), ("E", 0x5D), ("B", 0x5D)], tinyPatch.symbols⟩ := by
    decide +kernel
  have hlate : lateGroundwork.table.result.map (fun table => table.data.length) = .ok 0x25 := by
    decide +kernel
  obtain ⟨-, hbuild⟩ := room_is_exact
  refine ⟨⟨by rw [htrim]; rfl, ?_⟩, ?_⟩
  · obtain ⟨-, hfits⟩ := hbuild _ _ _ _ _ tinyGroundwork
    refine ((hfits _ htable).1 (by rw [htrim]; decide)).trans ?_
    decide +kernel
  · obtain ⟨-, hfits⟩ := hbuild _ _ _ _ _ lateGroundwork
    cases hresult : lateGroundwork.table.result with
    | error fault => simp [hresult, Except.map] at hlate
    | ok table =>
      have hlength : table.data.length = 0x25 := by simpa [hresult, Except.map] using hlate
      have hoffset : lateGroundwork.offset = 0x55 := rfl
      have hrefused := (hfits table hresult).2 (by rw [htrim, hlength, hoffset]; decide)
      rw [hlength, hoffset, htrim] at hrefused
      exact ⟨⟨table, rfl⟩, hrefused⟩

end Patch

end ModelPatch

import Mathlib
import ModelPatch.Proofs.HexText
import ModelPatch.Proofs.TrailerExtent
import ModelPatch.Proofs.WrittenFiles

/-!
# The listing of an alias table

`table` shows the table that `build` writes, eight bytes to a line behind their offset in the asset.
What is shown determines the table: each line can be read back, and the bytes of all lines are the
table, whatever its length is.

The two commands build the patch by themselves, and one of them may be given another name for the
asset. The name stands in notices and in the patch itself, but neither the table nor the patched
asset depends on it.

## Main definitions

* `Listing.ShowsRow`: a line that shows some bytes and their offset;
* `Listing.IsListing`: lines that show a table, eight bytes to a line;
* `Listing.rows?`: the offsets and bytes that the lines of a text show.

## Main results

* `length_rowsOfEight`, `getElem?_rowsOfEight`, `flatten_rowsOfEight`: a table in rows;
* `Bytes.ofHexDigits?_hexRow`: a row of bytes is read back;
* `Listing.isListing_tableLines`: a table is listed in rows of eight bytes;
* `Listing.rows?_of_forall₂`: a listing is read back;
* `Listing.splitOn_join`: lines with a line feed behind each are the lines of a text;
* `Patch.build_named`: the name of an asset does not matter for its patch;
* `Console.table_listing`: what is listed is the table that a build writes.
-/

namespace ModelPatch

/-! ### Rows -/

section Rows

variable {bytes : Bytes}

theorem flatten_rowsOfEight (bytes : Bytes) : (rowsOfEight bytes).flatten = bytes := by
  fun_induction rowsOfEight bytes with
  | case1 => rfl
  | case2 b bs ih => rw [List.flatten_cons, ih, List.cons_append, List.take_append_drop]

/-- There is a row for every eight bytes that have begun. -/
theorem length_rowsOfEight (bytes : Bytes) :
    (rowsOfEight bytes).length = (bytes.length + 7) / 8 := by
  fun_induction rowsOfEight bytes with
  | case1 => rfl
  | case2 b bs ih =>
    rw [List.length_cons, ih, List.length_drop, List.length_cons]
    omega

theorem getElem?_rowsOfEight {k : Nat} (h : k < (rowsOfEight bytes).length) :
    (rowsOfEight bytes)[k]? = some ((bytes.drop (8 * k)).take 8) := by
  fun_induction rowsOfEight bytes generalizing k with
  | case1 => simp at h
  | case2 b bs ih =>
    cases k with
    | zero => simp
    | succ k =>
      have hdrop : (b :: bs).drop (8 * (k + 1)) = (bs.drop 7).drop (8 * k) := by
        rw [List.drop_drop, Nat.mul_succ, Nat.add_comm 7, List.drop_succ_cons]
      rw [List.length_cons, Nat.add_lt_add_iff_right] at h
      rw [List.getElem?_cons_succ, ih h, hdrop]

theorem ne_nil_of_mem_rowsOfEight (bytes : Bytes) : ∀ row ∈ rowsOfEight bytes, row ≠ [] := by
  fun_induction rowsOfEight bytes with
  | case1 => simp
  | case2 b bs ih => exact List.forall_mem_cons.mpr ⟨by simp, ih⟩

end Rows

/-! ### Bytes in a line -/

namespace Bytes

theorem toList_hexRow (bytes : Bytes) :
    (hexRow bytes).toList = [' '].intercalate (bytes.map hexPair) := by
  rw [hexRow, String.toList_intercalate, List.map_map]
  congr 1
  refine List.map_congr_left fun b _ => ?_
  simp

theorem ofHexDigits?_hexPair_append (b : UInt8) (rest : List Char) :
    ofHexDigits? (hexPair b ++ rest) = (ofHexDigits? rest).map (b :: ·) := by
  have hb : b.toNat < 256 := b.toNat_lt
  exact ofHexDigits?_pair (hexValue?_hexDigit (by omega)) (hexValue?_hexDigit (by omega)) rest

theorem ofHexDigits?_space_cons (rest : List Char) :
    ofHexDigits? (' ' :: rest) = ofHexDigits? rest := by
  cases rest with
  | nil => rfl
  | cons c rest => rw [ofHexDigits?, if_pos (by decide)]

/-- **A row of bytes is read back.** -/
theorem ofHexDigits?_hexRow (bytes : Bytes) : ofHexDigits? (hexRow bytes).toList = some bytes := by
  rw [toList_hexRow]
  induction bytes with
  | nil => rfl
  | cons b rest ih =>
    cases rest with
    | nil =>
      have hpair := ofHexDigits?_hexPair_append b []
      simpa [ofHexDigits?] using hpair
    | cons c rest =>
      rw [List.map_cons, List.map_cons, List.intercalate_cons_cons, List.append_assoc,
        ofHexDigits?_hexPair_append, List.singleton_append, ofHexDigits?_space_cons,
        ← List.map_cons, ih]
      rfl

end Bytes

/-! ### Lines of a listing -/

namespace Listing

variable {line : List Char} {offset : Nat} {row : Bytes} {rows : List Bytes}

/-- A line shows some bytes and their offset: the offset in eight capital digits or more, a colon,
and the bytes as pairs of capital digits, with a space in front of each pair. -/
def ShowsRow (line : List Char) (offset : Nat) (row : Bytes) : Prop :=
  ∃ address column, line = address ++ ':' :: ' ' :: column ∧ 8 ≤ address.length ∧
    (∀ c ∈ address, c ∈ "0123456789ABCDEF".toList) ∧ Hex.parse address = .ok offset ∧
    column.splitOn ' ' = row.map Bytes.hexPair

/-- The bytes in a row of a table. -/
def rowAt (table : Bytes) (k : Nat) : Bytes :=
  (table.drop (8 * k)).take 8

/-- Some lines show a table at an offset, eight bytes to a line. -/
structure IsListing (lines : List (List Char)) (offset : Nat) (table : Bytes) : Prop where
  /-- There is a line for every eight bytes that have begun. -/
  length_eq : lines.length = (table.length + 7) / 8
  /-- Each line shows its row and where this stands. -/
  showsRow : ∀ k line, lines[k]? = some line → ShowsRow line (offset + 8 * k) (rowAt table k)
  /-- All rows but the last one have eight bytes, -/
  full : ∀ k, k + 1 < lines.length → (rowAt table k).length = 8
  /-- and the last one has one to eight. -/
  last : ∀ k, k + 1 = lines.length →
    1 ≤ (rowAt table k).length ∧ (rowAt table k).length ≤ 8

/-- The offset and the bytes that a line shows. -/
def row? (line : List Char) : Option (Nat × Bytes) := do
  let (address, column) ← cutAt ':' line
  let offset ← (Hex.parse address).toOption
  let row ← Bytes.ofHexDigits? column
  return (offset, row)

/-- The offsets and the bytes that the lines of a text show. -/
def rows? (text : List Char) : Option (List (Nat × Bytes)) :=
  (text.splitOn '\n').dropLast.mapM row?

theorem mem_capitals_of_lt : ∀ d < 16, hexDigit d ∈ "0123456789ABCDEF".toList := by
  decide

theorem forall_mem_hexPair {P : Char → Prop} (h : ∀ d < 16, P (hexDigit d)) (b : UInt8) :
    ∀ c ∈ Bytes.hexPair b, P c := by
  have hb : b.toNat < 256 := b.toNat_lt
  rw [Bytes.hexPair, List.forall_mem_cons, List.forall_mem_singleton]
  exact ⟨h _ (by omega), h _ (by omega)⟩

/-- A row of bytes is a line of capital digits, spaces and a colon. -/
theorem ShowsRow.mem_of_mem (h : ShowsRow line offset row) :
    ∀ c ∈ line, c ∈ "0123456789ABCDEF: ".toList := by
  obtain ⟨address, column, rfl, -, hcapitals, -, hcolumn⟩ := h
  have hcapital : "0123456789ABCDEF".toList ⊆ "0123456789ABCDEF: ".toList := by decide
  have hpair : ∀ c ∈ column, c ≠ ' ' → c ∈ "0123456789ABCDEF".toList := by
    -- Without its spaces, the column is made of the pairs.
    intro c hc hspace
    have hflat : c ∈ (column.splitOn ' ').flatten := by
      rw [Text.flatten_splitOn]
      exact List.mem_filter.mpr ⟨hc, by simpa using hspace⟩
    rw [hcolumn, List.mem_flatten] at hflat
    obtain ⟨pair, hpair, hc⟩ := hflat
    obtain ⟨b, -, rfl⟩ := List.mem_map.mp hpair
    exact forall_mem_hexPair mem_capitals_of_lt b c hc
  intro c hc
  simp only [List.mem_append, List.mem_cons] at hc
  rcases hc with haddress | rfl | rfl | hc
  · exact hcapital (hcapitals c haddress)
  · decide
  · decide
  · by_cases hspace : c = ' '
    · rw [hspace]
      decide
    · exact hcapital (hpair c hc hspace)

theorem showsRow_line (offset : Nat) (hne : row ≠ []) :
    ShowsRow (String.ofList (Hex.padded 8 offset) ++ ": " ++ Bytes.hexRow row).toList offset
      row := by
  refine ⟨Hex.padded 8 offset, (Bytes.hexRow row).toList, by simp, Hex.le_length_padded 8 offset,
    Hex.forall_mem_padded mem_capitals_of_lt 8 offset,
    Hex.parse_of_spellsHex (Hex.spellsHex_padded 8 offset), ?_⟩
  have hspace : ∀ b, ' ' ∉ Bytes.hexPair b := fun b hmem =>
    forall_mem_hexPair (P := (· ≠ ' ')) (by decide) b ' ' hmem rfl
  rw [Bytes.toList_hexRow]
  refine List.splitOn_intercalate ' ' ?_ (by simpa using hne)
  intro pair hpair
  obtain ⟨b, -, rfl⟩ := List.mem_map.mp hpair
  exact hspace b

/-- **A line is read back.** -/
theorem ShowsRow.row?_eq (h : ShowsRow line offset row) :
    row? line = some (offset, row) := by
  obtain ⟨address, column, rfl, -, hcapitals, hoffset, hcolumn⟩ := h
  have hcut : cutAt ':' (address ++ ':' :: ' ' :: column) = some (address, ' ' :: column) :=
    cutAt_eq_some_iff.mpr ⟨rfl, fun hmem => absurd (hcapitals ':' hmem) (by decide)⟩
  have htext : column = (Bytes.hexRow row).toList := by
    rw [Bytes.toList_hexRow, ← hcolumn, List.intercalate_splitOn]
  rw [row?, hcut]
  simp [hoffset, Except.toOption, Bytes.ofHexDigits?_space_cons, htext, Bytes.ofHexDigits?_hexRow]

/-- The rows of a table with their offsets, each eight bytes behind the one before. -/
def placed (offset : Nat) (rows : List Bytes) : List (Nat × Bytes) :=
  rows.zipIdx.map fun e => (offset + 8 * e.2, e.1)

theorem placed_cons (offset : Nat) (row : Bytes) (rest : List Bytes) :
    placed offset (row :: rest) = (offset, row) :: placed (offset + 8) rest := by
  rw [placed, List.zipIdx_cons, List.map_cons, List.zipIdx_succ, List.map_map]
  refine congrArg _ (List.map_congr_left fun e _ => ?_)
  simp only [Function.comp_apply, Prod.mk.injEq, and_true]
  omega

theorem flatMap_snd_placed (offset : Nat) (rows : List Bytes) :
    (placed offset rows).flatMap Prod.snd = rows.flatten := by
  induction rows generalizing offset with
  | nil => rfl
  | cons row rest ih => rw [placed_cons, List.flatMap_cons, ih, List.flatten_cons]

/-- The lines of a table show its rows. -/
theorem forall₂_tableLines (offset : Nat) (hrows : ∀ row ∈ rows, row ≠ []) :
    List.Forall₂ (fun line (entry : Nat × Bytes) => ShowsRow line entry.1 entry.2)
      ((tableLines offset rows).map String.toList) (placed offset rows) := by
  induction rows generalizing offset with
  | nil => exact .nil
  | cons row rest ih =>
    rw [List.forall_mem_cons] at hrows
    rw [tableLines, List.map_cons, placed_cons]
    exact .cons (showsRow_line offset hrows.1) (ih (offset + 8) hrows.2)

/-- **A table is listed in rows of eight bytes.** -/
theorem isListing_tableLines (offset : Nat) (table : Bytes) :
    IsListing ((tableLines offset (rowsOfEight table)).map String.toList) offset table := by
  have hshown := forall₂_tableLines offset (ne_nil_of_mem_rowsOfEight table)
  obtain ⟨hsame, hshows⟩ := List.forall₂_iff_get.mp hshown
  have hrows : ((tableLines offset (rowsOfEight table)).map String.toList).length =
      (rowsOfEight table).length := by
    rw [hsame, placed, List.length_map, List.length_zipIdx]
  have hlength := hrows.trans (length_rowsOfEight table)
  refine ⟨hlength, fun k line hline => ?_, fun k hk => ?_, fun k hk => ?_⟩
  · obtain ⟨hk, rfl⟩ := List.getElem?_eq_some_iff.mp hline
    have hk' : k < (rowsOfEight table).length := hrows ▸ hk
    have hrowAt : (rowsOfEight table)[k] = rowAt table k :=
      (List.getElem_eq_iff hk').mpr (getElem?_rowsOfEight hk')
    simpa [placed, hrowAt] using hshows k hk (hsame ▸ hk)
  · rw [rowAt, List.length_take, List.length_drop]
    omega
  · rw [rowAt, List.length_take, List.length_drop]
    omega

/-! ### Printed lines -/

theorem intercalate_concat_nil (sep : Char) (pieces : List (List Char)) :
    [sep].intercalate (pieces ++ [[]]) = pieces.flatMap (· ++ [sep]) := by
  induction pieces with
  | nil => simp
  | cons piece pieces ih =>
    rw [List.cons_append, List.intercalate_cons_of_ne_nil (by simp), ih, List.flatMap_cons]

/-- Lines with a line feed behind each are the lines of the text. -/
theorem splitOn_join {lines : List String} (h : ∀ line ∈ lines, '\n' ∉ line.toList) :
    (String.join (lines.map (· ++ "\n"))).toList.splitOn '\n' =
      lines.map String.toList ++ [[]] := by
  have htext : (String.join (lines.map (· ++ "\n"))).toList =
      (lines.map String.toList).flatMap (· ++ ['\n']) := by
    rw [String.toList_join, List.flatMap_map, List.flatMap_map]
    exact List.flatMap_congr fun line _ => String.toList_append
  rw [htext, ← intercalate_concat_nil]
  refine List.splitOn_intercalate '\n' ?_ (by simp)
  intro piece hpiece
  simp only [List.mem_append, List.mem_map, List.mem_singleton] at hpiece
  rcases hpiece with ⟨line, hline, rfl⟩ | rfl
  · exact h line hline
  · simp

/-- The lines of a table hold nothing that is not printed as it is. -/
theorem notMem_of_mem_tableLines {offset : Nat} {table : Bytes} {line : String}
    (h : line ∈ tableLines offset (rowsOfEight table)) :
    '\x1B' ∉ line.toList ∧ '\n' ∉ line.toList := by
  obtain ⟨k, hk⟩ := List.mem_iff_getElem?.mp h
  have hrow := (isListing_tableLines offset table).showsRow k line.toList (by simp [hk])
  exact ⟨fun hmem => absurd (hrow.mem_of_mem _ hmem) (by decide),
    fun hmem => absurd (hrow.mem_of_mem _ hmem) (by decide)⟩

/-- **A listing is read back.** -/
theorem rows?_of_forall₂ {text : List Char} {lines : List (List Char)}
    {entries : List (Nat × Bytes)} (htext : text.splitOn '\n' = lines ++ [[]])
    (h : List.Forall₂ (fun line (entry : Nat × Bytes) => ShowsRow line entry.1 entry.2)
      lines entries) : rows? text = some entries := by
  rw [rows?, htext, List.dropLast_concat, mapM_eq_some_iff]
  exact h.imp fun _ _ hrow => hrow.row?_eq

end Listing

/-! ### Patches by other names -/

namespace Patch

variable {source : Manifest.Source} {asset : Bytes} {name file placeholder : String} {p : Patch}

/-- **The name of an asset does not matter for its patch**, but for the name that the patch has. -/
theorem build_named (h : (build source asset name file placeholder).result = .ok p)
    (other : String) :
    (build source asset other file placeholder).result = .ok { p with name := other } := by
  obtain ⟨s⟩ := build_eq_ok_iff.mp h
  refine build_eq_ok_iff.mpr ⟨?_⟩
  exact {
    s with
    trailer_eq := Trailer.parse_eq_ok_iff.mpr (Trailer.parse_eq_ok_iff.mp s.trailer_eq)
    skeleton_eq := Skeleton.locate_eq_ok_iff.mpr (Skeleton.locate_eq_ok_iff.mp s.skeleton_eq)
    patch_name := rfl }

end Patch

/-! ### Runs -/

variable {host : Host} {settings : Settings} {manifest asset : String}
  {output name : Option String} {p : Patch} {path : Path}

/-- A build has the patch that is shown for the same files. -/
theorem Delivers.of_shown
    (hshown : (Patch.ofFiles host.disk (Path.ofText manifest) (Path.ofText asset) none
      settings.placeholder).2 = .ok p)
    (hgoes : Task.IsDestination host settings (Path.ofText asset) output path) :
    ∃ named, Delivers host settings manifest asset output name { p with name := named } path := by
  obtain ⟨source, content, hsource, hcontent, hbuild⟩ := Patch.ofFiles_eq_ok_iff.mp hshown
  exact ⟨_, ⟨source, content, hsource, hcontent, Patch.build_named hbuild _⟩, hgoes⟩

/-- What a build writes is the patch that is shown for the same files. -/
theorem Delivers.output_eq {p' : Patch}
    (d : Delivers host settings manifest asset output name p' path)
    (hshown : (Patch.ofFiles host.disk (Path.ofText manifest) (Path.ofText asset) none
      settings.placeholder).2 = .ok p) : p'.output = p.output := by
  obtain ⟨source, content, hsource, hcontent, hbuild⟩ := Patch.ofFiles_eq_ok_iff.mp hshown
  obtain ⟨source', content', hsource', hcontent', hbuild'⟩ := d.builds
  obtain rfl := Except.ok.inj (hsource.symm.trans hsource')
  obtain rfl := Except.ok.inj (hcontent.symm.trans hcontent')
  have hsame := Except.ok.inj (hbuild'.symm.trans (Patch.build_named hbuild _))
  rw [hsame]

namespace Console

variable {words : List String} {verbose : Bool}

/-- A run that shows a table succeeds only if the patch is built and all of its lines arrive. -/
theorem exists_shown
    (hrequest : host.request words = .ok (.run verbose (.table manifest asset)))
    (hcode : (run host settings words).code = 0) :
    ∃ p, (Patch.ofFiles host.disk (Path.ofText manifest) (Path.ofText asset) none
        settings.placeholder).2 = .ok p ∧
      (host.print .output 0 p.tableLines).failed? = none ∧
      (run host settings words).output = (host.print .output 0 p.tableLines).text := by
  obtain ⟨lines, hverdict, hfailed, houtput⟩ := exists_answer_of_code hcode
  rw [conclude_run settings hrequest, Task.carryOut, Task.showBuilt] at hverdict
  cases hbuilt : (Patch.ofFiles host.disk (Path.ofText manifest) (Path.ofText asset) none
      settings.placeholder).2 with
  | error f =>
    rw [hbuilt] at hverdict
    cases hverdict
  | ok p =>
    rw [hbuilt] at hverdict
    obtain rfl := Verdict.answer.inj hverdict
    exact ⟨p, rfl, hfailed, houtput⟩

/-- **What is listed is the table that a build writes.** If a table is shown, there is a patch of
the two files. As plain lines are printed as they are, the output lists its table at the offset of
its pool, line by line, and is read back to it. The patched asset has the table at this offset.
Every build of the same files, whatever name it is given, has this asset to write: a file that it
touches holds what writing it there left, and it holds all of it if the build succeeds. -/
theorem table_listing (hplain : host.PrintsPlainly)
    (hrequest : host.request words = .ok (.run verbose (.table manifest asset)))
    (hcode : (run host settings words).code = 0) :
    ∃ p : Patch,
      (Patch.ofFiles host.disk (Path.ofText manifest) (Path.ofText asset) none
        settings.placeholder).2 = .ok p ∧
      (∃ lines, (run host settings words).output.toList.splitOn '\n' = lines ++ [[]] ∧
        Listing.IsListing lines p.region.offset p.table) ∧
      (∃ entries, Listing.rows? (run host settings words).output.toList = some entries ∧
        entries.flatMap Prod.snd = p.table) ∧
      Bytes.slice? p.output p.region.offset p.table.length = some p.table ∧
      ∀ words' verbose' output name,
        host.request words' = .ok (.run verbose' (.build manifest asset output name)) →
        ((run host settings words').code = 0 →
          ∃ path, (run host settings words').touched? = some (path, p.output)) ∧
        ∀ path left, (run host settings words').touched? = some (path, left) ↔
          Task.IsDestination host settings (Path.ofText asset) output path ∧
            (host.disk.write path p.output).left? p.output = some left := by
  obtain ⟨p, hshown, hfailed, houtput⟩ := exists_shown hrequest hcode
  have hlines : (run host settings words).output.toList.splitOn '\n' =
      p.tableLines.map String.toList ++ [[]] := by
    have hline : ∀ line ∈ p.tableLines, '\x1B' ∉ line.toList ∧ '\n' ∉ line.toList :=
      fun line => Listing.notMem_of_mem_tableLines
    rw [houtput, Host.text_print hplain (fun line h => (hline line h).1) hfailed]
    exact Listing.splitOn_join fun line h => (hline line h).2
  refine ⟨p, hshown, ⟨_, hlines, Listing.isListing_tableLines p.region.offset p.table⟩, ?_, ?_, ?_⟩
  · refine ⟨_, Listing.rows?_of_forall₂ hlines
      (Listing.forall₂_tableLines p.region.offset (ne_nil_of_mem_rowsOfEight p.table)), ?_⟩
    rw [Listing.flatMap_snd_placed, flatten_rowsOfEight]
  · obtain ⟨source, content, -, -, hbuild⟩ := Patch.ofFiles_eq_ok_iff.mp hshown
    obtain ⟨s⟩ := Patch.build_eq_ok_iff.mp hbuild
    exact s.slice?_output
  · intro words' verbose' output name hrequest'
    refine ⟨fun hsucceeds => ?_, fun path left => ?_⟩
    · obtain ⟨p', path, d, -, htouched⟩ := exists_delivers_of_code hrequest' hsucceeds
      exact ⟨path, by rw [htouched, d.output_eq hshown]⟩
    rw [touched?_eq_some_iff]
    constructor
    · rintro ⟨_, _, _, _, _, p', hbuild, d, hleft⟩
      cases hrequest'.symm.trans hbuild
      rw [d.output_eq hshown] at hleft
      exact ⟨d.goes_to, hleft⟩
    · rintro ⟨hgoes, hleft⟩
      obtain ⟨named, d⟩ := Delivers.of_shown hshown hgoes
      exact ⟨_, _, _, _, _, _, hrequest', d, hleft⟩

/-- The table of the small patch, and the asset that it is written to under another name. -/
theorem table_listing_tiny :
    let settings := Settings.ofEnvironment fun _ => none
    (∃ entries, Listing.rows? (run tinyHost settings ["table", "m", "z"]).output.toList =
        some entries ∧ entries.flatMap Prod.snd = Patch.tinyPatch.table) ∧
      (run tinyHost settings ["build", "m", "z", "-n", "a", "-o", "./z"]).touched? =
        some (Path.ofText "./z", Patch.tinyPatch.output) := by
  intro settings
  have hrequest : tinyHost.request ["table", "m", "z"] = .ok (.run false (.table "m" "z")) := by
    decide +kernel
  have hcode : (run tinyHost settings ["table", "m", "z"]).code = 0 := by decide +kernel
  obtain ⟨p, hshown, -, hrows, -, hbuilds⟩ :=
    table_listing (Host.printsPlainly_standard _ _) hrequest hcode
  obtain rfl := Except.ok.inj (hshown.symm.trans (Patch.ofFiles_eq_ok_iff.mpr tiny_delivers.builds))
  refine ⟨hrows, ?_⟩
  have hbuild : tinyHost.request ["build", "m", "z", "-n", "a", "-o", "./z"] =
      .ok (.run false (.build "m" "z" (some "./z") (some "a"))) := by decide +kernel
  exact ((hbuilds _ _ _ _ hbuild).2 _ _).mpr ⟨tiny_delivers.goes_to, by decide +kernel⟩

end Console

end ModelPatch

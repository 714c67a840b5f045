import Mathlib
import ModelPatch.Proofs.DictionaryLines
import ModelPatch.Proofs.OrderedMaps
import ModelPatch.Proofs.PoolLines
import ModelPatch.Proofs.Utf8Text

/-!
# Manifests that are written are read back

The lines of a draft are plain, so they are the first lines of the manifest that is written from it.
The dictionary ends at the first line that says so, which is its own, because the line of an entry
has a space in it; the pool begins at the first line with its keyword, because the line of an entry
has something else behind that space.

## Main results

* `Section.result_find`: a section is found behind lines that do not begin with its keyword;
* `Draft.result_find_dictionary`, `Draft.result_find_pool`: the sections of a draft are found;
* `Manifest.parse_lines`: a manifest is read back.
-/

namespace ModelPatch

/-! ### Sections -/

/-- **A section is found** behind lines that do not begin with its keyword, and it ends before the
first line that says so. -/
theorem Section.result_find {keyword : String} {header : List Char} {before body : List Line}
    {start stop : Line} (hbefore : ∀ l ∈ before, ¬ keyword.toList <+: l.content)
    (hstart : start.content = keyword.toList ++ header)
    (hbody : ∀ l ∈ body, l.content ≠ "END".toList) (hstop : stop.content = "END".toList)
    (file : String) (after : List Line) :
    (find file keyword (before ++ start :: (body ++ stop :: after))).result =
      .ok ⟨⟨Text.strip header, start.number⟩, body⟩ := by
  have hend : isEnd stop = true := by simp [isEnd, hstop]
  have hin : ∀ l ∈ body, (!isEnd l) = true := by
    intro l hl
    rw [Bool.not_eq_true', isEnd, decide_eq_false_iff_not]
    exact hbody l hl
  have hout : ∀ l ∈ before, (!keyword.toList.isPrefixOf l.content) = true := by
    intro l hl
    rw [Bool.not_eq_true', ← Bool.not_eq_true, List.isPrefixOf_iff_prefix]
    exact hbefore l hl
  have hfirst : (before ++ start :: (body ++ stop :: after)).dropWhile
      (fun l => !keyword.toList.isPrefixOf l.content) = start :: (body ++ stop :: after) := by
    rw [List.dropWhile_append_of_pos hout, List.dropWhile_cons_of_neg (by simp [hstart])]
  have htake : (body ++ stop :: after).takeWhile (fun l => !isEnd l) = body := by
    rw [List.takeWhile_append_of_pos hin, List.takeWhile_cons_of_neg (by simp [hend])]
    simp
  simp only [find, hfirst]
  rw [if_pos (by simp [hend]), htake, hstart, ← String.length_toList, List.drop_left]
  rfl

/-! ### The lines of a draft -/

namespace Draft

variable {d : Draft}

theorem isPlain_of_mem_lines (h : d.IsWritable) : ∀ cs ∈ d.lines, Line.IsPlain cs := by
  intro cs hcs
  simp only [lines, List.mem_cons, List.mem_append, List.mem_map,
    List.mem_flatMap, List.not_mem_nil, or_false] at hcs
  rcases hcs with rfl | ⟨e, he, rfl⟩ | rfl | rfl | ⟨g, hg, hcs⟩ | rfl
  · exact ⟨by decide, by decide, by decide⟩
  · exact Entry.isPlain_line (h.entries e he)
  · exact ⟨by decide, by decide, by decide⟩
  · exact d.region.isPlain_line
  · exact DraftGroup.isPlain_of_mem_lines (h.groups g hg) cs hcs
  · exact ⟨by decide, by decide, by decide⟩

/-! ### Reading a draft -/

/-- The lines of the dictionary. -/
def entryLines (d : Draft) : List Line :=
  Line.numbered 2 (d.entries.map Entry.line)

/-- The lines of the pool. -/
def groupLines (d : Draft) : List Line :=
  Line.numbered (d.entries.length + 4) (d.groups.flatMap DraftGroup.lines)

/-- The lines of a draft with their numbers. -/
theorem numbered_lines (d : Draft) : ∃ last : Int, Line.numbered 1 d.lines =
    ⟨"DICTIONARY".toList, 1⟩ :: (d.entryLines ++ ⟨"END".toList, d.entries.length + 2⟩ ::
      ⟨d.region.line, d.entries.length + 3⟩ :: (d.groupLines ++ [⟨"END".toList, last⟩])) := by
  have hend : 2 + d.entries.length = d.entries.length + 2 := Nat.add_comm 2 _
  refine ⟨d.entries.length + 4 + (d.groups.flatMap DraftGroup.lines).length, ?_⟩
  simp [lines, entryLines, groupLines, hend, add_assoc]

/-- The line of an entry does not end the dictionary. -/
theorem ne_end_of_mem_entryLines : ∀ l ∈ d.entryLines, l.content ≠ "END".toList := by
  intro l hl
  obtain ⟨e, -, hline⟩ := List.mem_map.mp (Line.content_mem_of_mem_numbered hl)
  rw [← hline]
  exact ne_of_mem_of_not_mem' e.space_mem_line (by decide)

/-- The dictionary is what stands between the first line and the first end. -/
theorem result_find_dictionary (d : Draft) (file : String) (rest : List Line) :
    (Section.find file Section.dictionaryKeyword (Line.numbered 1 d.lines ++ rest)).result =
      .ok ⟨⟨[], 1⟩, d.entryLines⟩ := by
  obtain ⟨last, hlines⟩ := d.numbered_lines
  have hbefore : ∀ l ∈ ([] : List Line),
      ¬ Section.dictionaryKeyword.toList <+: l.content := by
    simp
  have hstart : (⟨"DICTIONARY".toList, 1⟩ : Line).content =
      Section.dictionaryKeyword.toList ++ [] := rfl
  have hstop : (⟨"END".toList, d.entries.length + 2⟩ : Line).content = "END".toList := rfl
  rw [hlines, List.cons_append, List.append_assoc]
  exact Section.result_find hbefore hstart ne_end_of_mem_entryLines hstop file _

/-- The pool is what stands between its declaration and the end behind it. -/
theorem result_find_pool (h : d.IsWritable) (file : String) (rest : List Line) :
    (Section.find file Section.poolKeyword (Line.numbered 1 d.lines ++ rest)).result =
      .ok ⟨⟨d.region.declaration, d.entries.length + 3⟩, d.groupLines⟩ := by
  obtain ⟨last, hlines⟩ := d.numbered_lines
  have hbefore : ∀ l ∈ ⟨"DICTIONARY".toList, 1⟩ ::
      (d.entryLines ++ [⟨"END".toList, d.entries.length + 2⟩]),
      ¬ Section.poolKeyword.toList <+: l.content := by
    intro l hl
    rcases List.mem_cons.mp hl with rfl | hl
    · decide
    rcases List.mem_append.mp hl with hl | hl
    · obtain ⟨e, he, hline⟩ := List.mem_map.mp (Line.content_mem_of_mem_numbered hl)
      rw [← hline]
      exact Entry.not_prefix_line (h.entries e he)
    · rw [List.mem_singleton.mp hl]
      exact (by decide : ¬ Section.poolKeyword.toList <+: "END".toList)
  have hstart : (⟨d.region.line, d.entries.length + 3⟩ : Line).content =
      Section.poolKeyword.toList ++ d.region.declaration := rfl
  have hbody : ∀ l ∈ d.groupLines, l.content ≠ "END".toList := by
    intro l hl
    obtain ⟨g, -, hcontent⟩ := List.mem_flatMap.mp (Line.content_mem_of_mem_numbered hl)
    exact g.ne_end_of_mem_lines l.content hcontent
  have hstop : (⟨"END".toList, last⟩ : Line).content = "END".toList := rfl
  have hfind := Section.result_find hbefore hstart hbody hstop file rest
  rw [hlines]
  simpa [d.region.isWord_declaration.strip] using hfind

theorem result_parse_dictionary (h : d.IsWritable) (file : String) :
    (Dictionary.parse file d.entryLines).result =
      .ok ⟨.ofList d.literals, .ofList d.bankAliases⟩ := by
  rw [Dictionary.parse, entryLines, Dictionary.result_foldlM_lines h.entries, Dictionary.foldl_add]
  rfl

theorem result_parse_pool (h : d.IsWritable) (file : String) (number : Int) :
    (Pool.parse file ⟨d.region.declaration, number⟩ d.groupLines).result =
      .ok ⟨d.region, d.placed file⟩ := by
  have hsplit : Pool.splitDeclaration ⟨d.region.declaration, number⟩ d.groupLines =
      some (⟨d.region.declaration, number⟩, d.groupLines) := rfl
  have hregion : (Region.parse (some ⟨file, number⟩) d.region.declaration).result =
      .ok d.region := by
    rw [Region.parse, Region.ofContent?_declaration h.untagged]
    rfl
  have hgroups : (Group.collect file none d.groupLines).result = .ok (d.placed file) :=
    Group.result_collect_lines h.groups file none (d.entries.length + 4)
  simp only [Pool.parse, hsplit, Line.location]
  refine Build.result_bind_eq_ok_iff.mpr ⟨d.region, hregion, ?_⟩
  refine Build.result_bind_eq_ok_iff.mpr ⟨(), rfl, ?_⟩
  exact Build.result_bind_eq_ok_iff.mpr ⟨d.placed file, hgroups, rfl⟩

end Draft

namespace Manifest

variable {d : Draft}

/-- **A manifest is read back.** It may be given as text or as bytes, and any lines may stand behind
it. The literal entries and the bank aliases come in the order in which they are written, and so do
the groups; each label and each call is located on its own line. -/
theorem parse_lines (h : d.IsWritable) {source : Source} {behind : List (List Char)}
    (hsource : source.decode = ['\n'].intercalate (d.lines ++ behind)) (file : String) :
    ∃ manifest, (parse file source).result = .ok manifest ∧ manifest.file = file ∧
      manifest.dictionary.entries.entries = d.literals ∧
      manifest.dictionary.bankAliases.entries = d.bankAliases ∧
      manifest.pool.region = d.region ∧ manifest.pool.groups = d.placed file ∧
      ∀ g ∈ manifest.pool.groups,
        ⟨g.label.toList ++ [':'], g.location.line⟩ ∈ Line.numbered 1 d.lines ∧
          ∀ call ∈ g.calls,
            ⟨call.text ++ [';'], call.location.line⟩ ∈ Line.numbered 1 d.lines := by
  have hnonempty : d.lines ≠ [] := by simp [Draft.lines]
  obtain ⟨rest, hrest⟩ :=
    Line.numbered_prefix_ofText (Draft.isPlain_of_mem_lines h) hnonempty behind
  have hparse : (parse file source).result =
      .ok ⟨file, ⟨.ofList d.literals, .ofList d.bankAliases⟩, ⟨d.region, d.placed file⟩⟩ := by
    rw [parse, hsource, ← hrest, ofLines]
    refine Build.result_bind_eq_ok_iff.mpr ⟨_, Draft.result_find_dictionary d file rest, ?_⟩
    refine Build.result_bind_eq_ok_iff.mpr ⟨_, Draft.result_parse_dictionary h file, ?_⟩
    refine Build.result_bind_eq_ok_iff.mpr ⟨_, Draft.result_find_pool h file rest, ?_⟩
    refine Build.result_bind_eq_ok_iff.mpr ⟨_, Draft.result_parse_pool h file _, ?_⟩
    exact Build.result_bind_eq_ok_iff.mpr ⟨(), rfl, rfl⟩
  refine ⟨_, hparse, rfl, OrderedMap.entries_ofList h.literals,
    OrderedMap.entries_ofList h.bankAliases, rfl, rfl, ?_⟩
  intro g hg
  have hsubset : ∀ l ∈ d.groupLines, l ∈ Line.numbered 1 d.lines := by
    intro l hl
    obtain ⟨last, hlines⟩ := d.numbered_lines
    rw [hlines]
    simp [hl]
  obtain ⟨hlabel, hcalls⟩ :=
    Draft.placedGroups_mem_numbered file (d.entries.length + 4) d.groups g hg
  exact ⟨hsubset _ hlabel, fun call hcall => hsubset _ (hcalls call hcall)⟩

/-- A draft with names that a reader could take for something else: a literal entry and a label
that are called as the end of a section, a quoted name that begins with a space and a slash, and a
label with a semicolon. -/
def oddDraft : Draft where
  entries := [.literal "END" 0, .bankAlias " /OBJECT POOL=1,2 " "DL_B", .literal "a\"b" 0xAB12]
  region := ⟨0x7000380, 0x80⟩
  groups := [⟨"END", ["END".toList, "CallList(DL_B)".toList]⟩, ⟨"DICTIONARY", []⟩,
    ⟨"x;y", ["OBJECTPOOL".toList]⟩]

/-- The bytes of the manifest that is written from it, with a line feed at the end. -/
def oddBytes : Bytes :=
  Utf8.encode (['\n'].intercalate (oddDraft.lines ++ [[]]))

/-- It is read back from these bytes. -/
theorem parse_lines_oddDraft :
    oddDraft.IsWritable ∧ ∃ manifest, (parse "odd" (.bytes oddBytes)).result = .ok manifest ∧
      manifest.dictionary.entries.entries = [("END", 0), ("a\"b", 0xAB12)] ∧
      manifest.dictionary.bankAliases.entries = [(" /OBJECT POOL=1,2 ", "DL_B")] ∧
      manifest.pool.region = ⟨0x7000380, 0x80⟩ ∧
      manifest.pool.groups =
        [⟨"END", ⟨"odd", 7⟩, [⟨"END".toList, "odd", 8⟩, ⟨"CallList(DL_B)".toList, "odd", 9⟩]⟩,
          ⟨"DICTIONARY", ⟨"odd", 10⟩, []⟩,
          ⟨"x;y", ⟨"odd", 11⟩, [⟨"OBJECTPOOL".toList, "odd", 12⟩]⟩] := by
  have hwritable : oddDraft.IsWritable := by decide +kernel
  have hsource : (Source.bytes oddBytes).decode =
      ['\n'].intercalate (oddDraft.lines ++ [[]]) :=
    Utf8.decode_encode _
  obtain ⟨manifest, hparse, -, hliterals, haliases, hregion, hgroups, -⟩ :=
    parse_lines hwritable hsource "odd"
  exact ⟨hwritable, manifest, hparse, hliterals, haliases, hregion, hgroups⟩

end Manifest

end ModelPatch

import Mathlib
import ModelPatch.Proofs.DictionaryGrammar
import ModelPatch.Proofs.MentionedNames

/-!
# The order of dictionary lines

A dictionary keeps one offset for a name and one name for a quoted text, and the last line that is
about either decides. If no two lines are about the same one, there is nothing to decide, and the
lines can stand in any order, whatever their numbers are then. The order still shows in the order in
which names are listed, and nowhere else.

What takes an argument is that two texts may be quoted for the same name. They compete for it, but
their lines do not settle this. The symbols are merged along the trailer, and the dictionary is only
asked under which name a text is known.

## Main definitions

* `Dictionary.Unrepeated`: no two lines are about the same name or the same quoted text;
* `Dictionary.SaysSame`: two dictionaries say the same about everything.

## Main results

* `Dictionary.saysSame_ofLines`: lines that are not repeated say the same in any order;
* `SymbolTable.get?_ofSources_congr`: the symbols depend on what a dictionary says, and not on the
  order in which it says it;
* `Dictionary.lines_in_any_order`: so neither do the symbols nor the table of a pool.
-/

namespace ModelPatch

/-! ### Lines and their contents -/

namespace Line

variable {lines lines' : List Line}

/-- What the lines of a dictionary say does not depend on their numbers. -/
theorem perm_filterMap_of_content {α : Type} (f : List Char → Option α)
    (h : (lines.map content).Perm (lines'.map content)) :
    (lines.filterMap fun l => f l.content).Perm (lines'.filterMap fun l => f l.content) := by
  have hcontents : ∀ lines : List Line,
      (lines.filterMap fun l => f l.content) = (lines.map content).filterMap f := fun lines => by
    rw [List.filterMap_map]
    rfl
  rw [hcontents, hcontents]
  exact h.filterMap f

theorem perm_literal? (h : (lines.map content).Perm (lines'.map content)) :
    (lines.filterMap literal?).Perm (lines'.filterMap literal?) :=
  perm_filterMap_of_content (fun cs => (Entry.ofContent cs).toOption.bind Entry.literal?) h

theorem perm_bankAlias? (h : (lines.map content).Perm (lines'.map content)) :
    (lines.filterMap bankAlias?).Perm (lines'.filterMap bankAlias?) :=
  perm_filterMap_of_content (fun cs => (Entry.ofContent cs).toOption.bind Entry.bankAlias?) h

theorem isWellFormed_of_perm (h : (lines.map content).Perm (lines'.map content))
    (hlines : ∀ l ∈ lines, l.isEmpty = false → l.IsWellFormed) :
    ∀ l ∈ lines', l.isEmpty = false → l.IsWellFormed := by
  intro l hl hempty
  have hmem : l.content ∈ lines.map content := h.mem_iff.mpr (List.mem_map_of_mem hl)
  obtain ⟨l₀, hl₀, hsame⟩ := List.mem_map.mp hmem
  rw [isEmpty, ← hsame] at hempty
  rw [IsWellFormed, ← hsame]
  exact hlines l₀ hl₀ hempty

end Line

/-! ### Dictionaries -/

namespace Dictionary

variable {file : String} {lines lines' : List Line} {d d' : Dictionary}

/-- No two lines give an offset to the same name, and no two quote the same text. Two texts may be
quoted for the same name. -/
structure Unrepeated (lines : List Line) : Prop where
  /-- A name has one offset. -/
  names : lines.Pairwise fun l later => ∀ name offset other,
    l.Gives name offset → ¬ later.Gives name other
  /-- A quoted text has one name. -/
  quotations : lines.Pairwise fun l later => ∀ quoted name other,
    l.Quotes quoted name → ¬ later.Quotes quoted other

theorem unrepeated_iff :
    Unrepeated lines ↔
      ((lines.filterMap Line.literal?).map Prod.fst).Nodup ∧
        ((lines.filterMap Line.bankAlias?).map Prod.fst).Nodup := by
  rw [OrderedMap.nodup_map_fst_filterMap_iff Line.gives_iff_literal?,
    OrderedMap.nodup_map_fst_filterMap_iff Line.quotes_iff_bankAlias?]
  exact ⟨fun h => ⟨h.names, h.quotations⟩, fun h => ⟨h.1, h.2⟩⟩

instance (lines : List Line) : Decidable (Unrepeated lines) :=
  decidable_of_iff _ unrepeated_iff.symm

/-- Two dictionaries say the same about each name and about each quoted text. They may list them in
different orders. -/
structure SaysSame (d d' : Dictionary) : Prop where
  /-- A name has the same offset in both. -/
  entries : ∀ name, d.entries.get? name = d'.entries.get? name
  /-- A quoted text has the same name in both. -/
  bankAliases : ∀ quoted, d.bankAliases.get? quoted = d'.bankAliases.get? quoted

/-- **Lines that are not repeated say the same in any order.** -/
theorem saysSame_ofLines (hlines : Unrepeated lines)
    (hperm : (lines.map Line.content).Perm (lines'.map Line.content)) :
    SaysSame (ofLines lines) (ofLines lines') := by
  obtain ⟨hnames, hquotations⟩ := unrepeated_iff.mp hlines
  exact ⟨OrderedMap.get?_ofList_of_perm (Line.perm_literal? hperm) hnames,
    OrderedMap.get?_ofList_of_perm (Line.perm_bankAlias? hperm) hquotations⟩

end Dictionary

/-! ### Symbols -/

namespace SymbolTable

variable {d d' : Dictionary} {trailer : Trailer} {offset : Int} {placeholder : String}
  {t t' : SymbolTable}

/-- The trailer goes by its own order. -/
theorem resolutions_congr (h : d.SaysSame d') (trailer : Trailer) :
    resolutions d trailer = resolutions d' trailer := by
  simp only [resolutions, h.bankAliases]

/-- **The symbols depend on what a dictionary says**, and not on the order in which it says it. -/
theorem get?_ofSources_congr (h : d.SaysSame d')
    (ht : (ofSources d trailer offset placeholder).result = .ok t)
    (ht' : (ofSources d' trailer offset placeholder).result = .ok t') (name : String) :
    t.symbols.get? name = t'.symbols.get? name := by
  have hvalues : name ∈ d.bankAliases.values ↔ name ∈ d'.bankAliases.values := by
    simp only [OrderedMap.mem_values_iff, h.bankAliases]
  rw [get?_ofSources ht, get?_ofSources ht', resolutions_congr h, h.entries]
  simp only [hvalues]

theorem agreeOn_ofSources (h : d.SaysSame d')
    (ht : (ofSources d trailer offset placeholder).result = .ok t)
    (ht' : (ofSources d' trailer offset placeholder).result = .ok t') (names : String → Prop) :
    t.AgreeOn names t' where
  get? name _ := get?_ofSources_congr h ht ht' name
  placeholder :=
    ⟨offset, get?_placeholder_of_ofSources ht, get?_placeholder_of_ofSources ht'⟩

end SymbolTable

/-! ### Tables -/

namespace Dictionary

variable {file : String} {lines lines' : List Line} {d : Dictionary}

/-- **The order of dictionary lines does not matter.** If lines are read, and no two of them are
about the same name or quote the same text, then they are read in any order, with any numbers. Each
name means the same, whatever the trailer and the placeholder are, also where two texts are quoted
for it. So each pool is compiled to the same bytes and labels, or is refused for the same cause on
the same line. -/
theorem lines_in_any_order (h : (parse file lines).result = .ok d) (hlines : Unrepeated lines)
    (hperm : (lines.map Line.content).Perm (lines'.map Line.content)) :
    ∃ d', (parse file lines').result = .ok d' ∧
      ∀ (trailer : Trailer) (offset : Int) (placeholder : String), ∃ t t',
        (SymbolTable.ofSources d trailer offset placeholder).result = .ok t ∧
        (SymbolTable.ofSources d' trailer offset placeholder).result = .ok t' ∧
        (∀ name, (t.lookup name).result = (t'.lookup name).result) ∧
        ∀ (pool : Pool) (header : Bytes),
          (∃ table table', (AliasTable.build pool t header).result = .ok table ∧
              (AliasTable.build pool t' header).result = .ok table' ∧
              table.data = table'.data ∧ table.labels = table'.labels) ∨
            ∃ cause location,
              (AliasTable.build pool t header).result = .error (.refused ⟨cause, location⟩) ∧
              (AliasTable.build pool t' header).result = .error (.refused ⟨cause, location⟩) := by
  obtain ⟨hread, rfl⟩ := result_parse_eq_ok_iff.mp h
  have hread' : (parse file lines').result = .ok (ofLines lines') :=
    result_parse_eq_ok_iff.mpr ⟨Line.isWellFormed_of_perm hperm hread, rfl⟩
  refine ⟨ofLines lines', hread', ?_⟩
  intro trailer offset placeholder
  have hsame : SaysSame (ofLines lines) (ofLines lines') := saysSame_ofLines hlines hperm
  obtain ⟨t, ht⟩ := SymbolTable.exists_ofSources (ofLines lines) trailer offset placeholder
  obtain ⟨t', ht'⟩ := SymbolTable.exists_ofSources (ofLines lines') trailer offset placeholder
  refine ⟨t, t', ht, ht', fun name => ?_, fun pool header => ?_⟩
  · rw [SymbolTable.lookup, SymbolTable.lookup, SymbolTable.get?_ofSources_congr hsame ht ht']
  · have hagree := SymbolTable.agreeOn_ofSources hsame ht ht' (· ∈ pool.mentioned)
    rcases AliasTable.alike_build header hagree with
      ⟨fault, hfault, hfault'⟩ | ⟨table, table', htable, htable', hcontents⟩
    · obtain ⟨cause, location, rfl, -⟩ := AliasTable.failsOnly_build pool t header fault hfault
      exact .inr ⟨cause, location, hfault, hfault'⟩
    · exact .inl ⟨table, table', htable, htable', hcontents⟩

/-! ### Two texts for one name -/

/-- Two texts that are quoted for one name, among literal entries. -/
def competingLines : List Line :=
  Line.ofText "LUT 10\nDL_A BANK \"X\"\nROW 0x20\nDL_A of \"Y\"".toList

/-- The same lines from the last to the first. -/
def turnedLines : List Line :=
  Line.ofText "DL_A of \"Y\"\nROW 0x20\nDL_A BANK \"X\"\nLUT 10".toList

/-- What the lines say. -/
def competingDictionary : Dictionary :=
  ⟨⟨[("LUT", 0x10), ("ROW", 0x20)], by decide⟩, ⟨[("X", "DL_A"), ("Y", "DL_A")], by decide⟩⟩

/-- A trailer that knows both texts. -/
def competingTrailer : Trailer :=
  ⟨[("Y", 0x30), ("X", 0x40)], by decide⟩

/-- The last text in the trailer gets the name, whichever line comes last. -/
theorem lines_in_any_order_turned :
    (parse "m" competingLines).result = .ok competingDictionary ∧ Unrepeated competingLines ∧
      (competingLines.map Line.content).Perm (turnedLines.map Line.content) ∧
      ∃ d', (parse "m" turnedLines).result = .ok d' ∧ ∃ t',
        (SymbolTable.ofSources d' competingTrailer 0x71 "DF").result = .ok t' ∧
        (t'.lookup "DL_A").result = .ok (.resolved 0x40) := by
  have hparse : (parse "m" competingLines).result = .ok competingDictionary := by decide +kernel
  have hlines : Unrepeated competingLines := by decide +kernel
  have hperm : (competingLines.map Line.content).Perm (turnedLines.map Line.content) := by
    decide +kernel
  obtain ⟨d', hparse', hsymbols⟩ := lines_in_any_order hparse hlines hperm
  obtain ⟨t, t', ht, ht', hlookup, -⟩ := hsymbols competingTrailer 0x71 "DF"
  refine ⟨hparse, hlines, hperm, d', hparse', t', ht', ?_⟩
  obtain rfl := SymbolTable.ofSources_eq_ok_iff.mp ht
  rw [← hlookup]
  decide +kernel

end Dictionary

end ModelPatch

import Mathlib
import ModelPatch.Proofs.DictionaryLines
import ModelPatch.Proofs.MergedSymbols

/-!
# The names that the lines of a dictionary define

Every line that is not empty begins with a name. The name of a literal entry is defined in any case.
The name of a bank alias is defined if its line is the last one to quote the text that it quotes: a
dictionary keeps one name for a quoted text, so a line that quotes the text again takes its name
away, and the name is lost unless it is the name of something else as well.

Names cannot be confused between the two sorts of entries. The mark of a bank alias is looked for at
the front of the line, and a line begins with its first word, because it has been stripped.

## Main definitions

* `Line.reading`: what a line says;
* `Dictionary.Keeps`: the name that some lines give to a quoted text in the end.

## Main results

* `Dictionary.parse_eq_ok_iff`: lines are read if each that is not empty says something, and what
  they say is added in order;
* `Dictionary.defined_names`: which names are defined, and as what;
* `Dictionary.name_lost`: two names for one quoted text, the first of which is undefined.
-/

namespace ModelPatch

/-! ### Entries -/

/-- What a line says; `none` if it is empty or cannot be read. -/
def Line.reading (l : Line) : Option Entry :=
  (Entry.ofContent l.content).toOption

theorem Line.reading_eq_some_iff {l : Line} {e : Entry} :
    l.reading = some e ↔ Entry.ofContent l.content = .ok e := by
  rw [reading]
  cases Entry.ofContent l.content <;> simp [Except.toOption]

theorem Line.reading_of_isEmpty {l : Line} (h : l.isEmpty = true) : l.reading = none := by
  rw [reading, List.isEmpty_iff.mp h]
  rfl

namespace Entry

variable {e : Entry} {content : List Char}

/-- The name that an entry defines. -/
def name : Entry → String
  | literal name _ => name
  | bankAlias _ name => name

theorem ofContent_of_mark (h : bankMark <+: content) :
    ofContent content = bankAliasOfWords (Text.words content) := by
  rw [ofContent, if_pos (List.isPrefixOf_iff_prefix.mpr h)]

theorem ofContent_of_not_mark (h : ¬ bankMark <+: content) :
    ofContent content = literalOfWords (Text.words content) := by
  rw [ofContent, if_neg fun hstart => h (List.isPrefixOf_iff_prefix.mp hstart)]

theorem head?_of_bankAliasOfWords {words : List (List Char)} (h : bankAliasOfWords words = .ok e) :
    words.head? = some e.name.toList ∧ ∃ quoted name, e = .bankAlias quoted name := by
  unfold bankAliasOfWords at h
  split at h
  · split at h
    · obtain rfl := Except.ok.inj h
      exact ⟨by rw [List.head?_cons, name, String.toList_ofList], _, _, rfl⟩
    · cases h
  · cases h

theorem head?_of_literalOfWords {words : List (List Char)} (h : literalOfWords words = .ok e) :
    words.head? = some e.name.toList ∧ ∃ name offset, e = .literal name offset := by
  unfold literalOfWords at h
  split at h
  · split at h
    · obtain rfl := Except.ok.inj h
      exact ⟨by rw [List.head?_cons, name, String.toList_ofList], _, _, rfl⟩
    · cases h
  · cases h

/-- A line begins with the name that it defines. -/
theorem head?_words_of_ofContent (h : ofContent content = .ok e) :
    (Text.words content).head? = some e.name.toList := by
  rw [ofContent] at h
  split at h
  · exact (head?_of_bankAliasOfWords h).1
  · exact (head?_of_literalOfWords h).1

/-- The names of bank aliases are those with the mark. -/
theorem bankMark_prefix_name_iff (h : ofContent content = .ok e)
    (hstrip : Text.strip content = content) :
    bankMark <+: e.name.toList ↔ ∃ quoted name, e = .bankAlias quoted name := by
  have hhead : ∀ c ∈ content.head?, isBlank c = false := hstrip ▸ Text.head?_strip content
  have hmark : ∀ c ∈ bankMark, isBlank c = false := by simp [bankMark, isBlank]
  rw [← Text.prefix_iff_of_head?_words hhead hmark (head?_words_of_ofContent h)]
  by_cases hstart : bankMark <+: content
  · rw [ofContent_of_mark hstart] at h
    exact ⟨fun _ => (head?_of_bankAliasOfWords h).2, fun _ => hstart⟩
  · rw [ofContent_of_not_mark hstart] at h
    obtain ⟨-, _, _, rfl⟩ := head?_of_literalOfWords h
    exact ⟨fun hin => absurd hin hstart, by rintro ⟨_, _, ⟨⟩⟩⟩

end Entry

/-! ### Lines -/

namespace Line

variable {l : Line} {quoted name : String} {offset : Nat}

/-- The name and the offset on the line of a literal entry. -/
def literal? (l : Line) : Option (String × Nat) :=
  l.reading.bind Entry.literal?

/-- The quoted name and the name on the line of a bank alias. -/
def bankAlias? (l : Line) : Option (String × String) :=
  l.reading.bind Entry.bankAlias?

theorem literal?_eq_some_iff :
    l.literal? = some (name, offset) ↔ l.reading = some (.literal name offset) := by
  rw [literal?]
  cases l.reading with
  | none => simp
  | some e => cases e <;> simp [Entry.literal?]

theorem bankAlias?_eq_some_iff :
    l.bankAlias? = some (quoted, name) ↔ l.reading = some (.bankAlias quoted name) := by
  rw [bankAlias?]
  cases l.reading with
  | none => simp
  | some e => cases e <;> simp [Entry.bankAlias?]

end Line

namespace Dictionary

variable {file : String} {lines : List Line} {d d' : Dictionary} {l : Line} {quoted name : String}

/-- A line is read if it is empty or says something, which is then added. -/
theorem addLine_eq_ok_iff :
    (addLine file d l).result = .ok d' ↔
      (l.isEmpty = false → l.reading.isSome) ∧ d' = l.reading.toList.foldl add d := by
  rw [addLine]
  cases hempty : l.isEmpty with
  | true => simp [Line.reading_of_isEmpty hempty, eq_comm]
  | false =>
    rw [if_neg (by simp)]
    cases hread : Entry.ofContent l.content with
    | ok e =>
      have hentry : l.reading = some e := Line.reading_eq_some_iff.mpr hread
      dsimp only
      rw [Build.result_bind_eq_ok_iff]
      simp [hentry, result_report, eq_comm]
    | error fault =>
      have hentry : l.reading = none := by rw [Line.reading, hread]; rfl
      simp [hentry, result_refuse]

/-- **Lines are read one behind the other**, each that is not empty must say something, and what they
say is added in order. -/
theorem parse_eq_ok_iff :
    (parse file lines).result = .ok d ↔
      (∀ l ∈ lines, l.isEmpty = false → l.reading.isSome) ∧
        d = (lines.filterMap Line.reading).foldl add empty := by
  rw [parse]
  generalize empty = start
  induction lines generalizing start with
  | nil =>
    rw [List.foldlM_nil, Build.result_pure, Except.ok.injEq, eq_comm]
    simp
  | cons l lines ih =>
    rw [List.foldlM_cons, Build.result_bind_eq_ok_iff]
    simp only [addLine_eq_ok_iff, ih, List.forall_mem_cons]
    constructor
    · rintro ⟨_, ⟨hl, rfl⟩, hlines, rfl⟩
      refine ⟨⟨hl, hlines⟩, ?_⟩
      cases hentry : l.reading <;> simp [hentry]
    · rintro ⟨⟨hl, hlines⟩, rfl⟩
      refine ⟨_, ⟨hl, rfl⟩, hlines, ?_⟩
      cases hentry : l.reading <;> simp [hentry]

/-- The name that some lines give to a quoted text in the end: the last line that quotes it has that
name. -/
def Keeps (lines : List Line) (quoted name : String) : Prop :=
  ∃ front l back, lines = front ++ l :: back ∧ l.reading = some (.bankAlias quoted name) ∧
    ∀ l' ∈ back, ∀ other, l'.reading ≠ some (.bankAlias quoted other)

/-- The literal entries and the bank aliases of a dictionary are those of its lines, in order. -/
theorem eq_ofList_of_parse (h : (parse file lines).result = .ok d) :
    d = ⟨.ofList (lines.filterMap Line.literal?), .ofList (lines.filterMap Line.bankAlias?)⟩ := by
  rw [(parse_eq_ok_iff.mp h).2, foldl_add, List.filterMap_filterMap, List.filterMap_filterMap]
  rfl

/-- A dictionary has the names that its lines keep. -/
theorem get?_bankAliases_iff (h : (parse file lines).result = .ok d) :
    d.bankAliases.get? quoted = some name ↔ Keeps lines quoted name := by
  rw [eq_ofList_of_parse h, OrderedMap.get?_ofList_filterMap_iff]
  simp only [Line.bankAlias?_eq_some_iff, ne_eq, Keeps]

theorem exists_line_of_keeps (h : Keeps lines quoted name) :
    ∃ l ∈ lines, l.reading = some (.bankAlias quoted name) := by
  obtain ⟨front, l, back, rfl, hl, -⟩ := h
  exact ⟨l, List.mem_append_right _ List.mem_cons_self, hl⟩

/-- A dictionary has the names of its literal entries. -/
theorem exists_get?_entries_iff (h : (parse file lines).result = .ok d) :
    (∃ offset, d.entries.get? name = some offset) ↔
      ∃ l ∈ lines, ∃ offset, l.reading = some (.literal name offset) := by
  rw [← OrderedMap.mem_keys_iff, eq_ofList_of_parse h, OrderedMap.keys_ofList, List.mem_eraseDups,
    List.mem_map]
  constructor
  · rintro ⟨⟨_, offset⟩, hpair, rfl⟩
    obtain ⟨l, hl, hliteral⟩ := List.mem_filterMap.mp hpair
    exact ⟨l, hl, offset, Line.literal?_eq_some_iff.mp hliteral⟩
  · rintro ⟨l, hl, offset, hentry⟩
    refine ⟨(name, offset), ?_, rfl⟩
    exact List.mem_filterMap.mpr ⟨l, hl, Line.literal?_eq_some_iff.mpr hentry⟩

/-- No bank alias has the name of a literal entry. -/
theorem literal_ne_bankAlias (hlines : ∀ l ∈ lines, Text.strip l.content = l.content) {l' : Line}
    (hl : l ∈ lines) (hl' : l' ∈ lines) {offset : Nat} {other : String}
    (hliteral : l.reading = some (.literal name offset))
    (halias : l'.reading = some (.bankAlias quoted other)) : name ≠ other := by
  rintro rfl
  have hmark := (Entry.bankMark_prefix_name_iff (Line.reading_eq_some_iff.mp halias)
    (hlines l' hl')).mpr ⟨_, _, rfl⟩
  obtain ⟨_, _, hsort⟩ := (Entry.bankMark_prefix_name_iff (Line.reading_eq_some_iff.mp hliteral)
    (hlines l hl)).mp hmark
  cases hsort

/-! ### Defined names -/

/-- **Which names are defined.** If stripped lines are read, as the lines of a text are, then every
line that is not empty begins with a name, and in the symbols of a build

* the name of a literal entry stands for an offset;
* the name of a bank alias is defined exactly if it is that of the placeholder or the lines keep it
  for some quoted text. If they keep it for the text of its own line and for no other, then it
  stands for what the trailer says about that text, and is external if the trailer says nothing. -/
theorem defined_names (h : (parse file lines).result = .ok d)
    (hlines : ∀ l ∈ lines, Text.strip l.content = l.content) (trailer : Trailer) (offset : Int)
    (placeholder : String) :
    ∃ t, (SymbolTable.ofSources d trailer offset placeholder).result = .ok t ∧
      (∀ l ∈ lines, l.isEmpty = false →
        ∃ e, l.reading = some e ∧ (Text.words l.content).head? = some e.name.toList) ∧
      (∀ l ∈ lines, ∀ name value, l.reading = some (.literal name value) →
        ∃ found, t.symbols.get? name = some (.resolved found)) ∧
      ∀ l ∈ lines, ∀ quoted name, l.reading = some (.bankAlias quoted name) →
        ((∃ symbol, t.symbols.get? name = some symbol) ↔
          name = placeholder ∨ ∃ other, Keeps lines other name) ∧
        (name ≠ placeholder → Keeps lines quoted name →
          (∀ other, Keeps lines other name → other = quoted) →
          t.symbols.get? name =
            match trailer.get? quoted with
            | some found => some (.resolved found)
            | none => some .external) := by
  obtain ⟨t, ht⟩ : ∃ t, (SymbolTable.ofSources d trailer offset placeholder).result = .ok t :=
    ⟨_, SymbolTable.ofSources_eq_ok_iff.mpr rfl⟩
  refine ⟨t, ht, ?_, ?_, ?_⟩
  · intro l hl hempty
    obtain ⟨e, he⟩ := Option.isSome_iff_exists.mp ((parse_eq_ok_iff.mp h).1 l hl hempty)
    exact ⟨e, he, Entry.head?_words_of_ofContent (Line.reading_eq_some_iff.mp he)⟩
  · intro l hl name value hentry
    by_cases hplaceholder : name = placeholder
    · rw [SymbolTable.get?_ofSources ht, if_pos hplaceholder]
      exact ⟨offset, rfl⟩
    have halias : name ∉ d.bankAliases.values := by
      intro hmem
      obtain ⟨quoted, hquoted⟩ := OrderedMap.mem_values_iff.mp hmem
      obtain ⟨l', hl', halias⟩ := exists_line_of_keeps ((get?_bankAliases_iff h).mp hquoted)
      exact literal_ne_bankAlias hlines hl hl' hentry halias rfl
    obtain ⟨found, hfound⟩ := (exists_get?_entries_iff h).mpr ⟨l, hl, value, hentry⟩
    rw [SymbolTable.get?_ofSources_literal ht hplaceholder halias, hfound]
    exact ⟨found, rfl⟩
  · intro l hl quoted name hentry
    constructor
    · have hliteral : ¬ ∃ offset, d.entries.get? name = some offset := by
        rw [exists_get?_entries_iff h]
        rintro ⟨l', hl', value, hvalue⟩
        exact literal_ne_bankAlias hlines hl' hl hvalue hentry rfl
      rw [SymbolTable.exists_get?_ofSources_iff ht, OrderedMap.mem_values_iff, or_iff_left hliteral]
      simp only [get?_bankAliases_iff h]
    · intro hplaceholder hkept hsole
      refine SymbolTable.get?_ofSources_alias ht hplaceholder ((get?_bankAliases_iff h).mpr hkept) ?_
      intro other hother
      exact hsole other ((get?_bankAliases_iff h).mp hother)

/-! ### Two names for one quoted text -/

/-- A literal entry, an empty line, two bank aliases for one quoted text, and one for another. -/
def sharedLines : List Line :=
  Line.ofText "LUT 10 // hand\n\nDL_A BANK \"X\"\nDL_B BANK \"X\"\nDL_C BANK \"Y\"".toList

/-- What is kept of these lines. -/
def sharedDictionary : Dictionary :=
  ⟨⟨[("LUT", 0x10)], by decide⟩, ⟨[("X", "DL_B"), ("Y", "DL_C")], by decide⟩⟩

/-- A trailer that knows one of the quoted texts. -/
def sharedTrailer : Trailer :=
  ⟨[("X", 0x20)], by decide⟩

theorem parse_sharedLines : (parse "shared" sharedLines).result = .ok sharedDictionary := by
  decide +kernel

theorem stripped_sharedLines : ∀ l ∈ sharedLines, Text.strip l.content = l.content :=
  fun _ => Line.strip_content_of_mem_ofText

/-- All names are defined but the first one of the quoted text that has two. -/
theorem defined_names_shared :
    (parse "shared" sharedLines).result = .ok sharedDictionary ∧
      (∀ l ∈ sharedLines, Text.strip l.content = l.content) ∧
      ∃ t, (SymbolTable.ofSources sharedDictionary sharedTrailer 0x71 "DF").result = .ok t ∧
        (∃ found, t.symbols.get? "LUT" = some (.resolved found)) ∧
        (¬ ∃ symbol, t.symbols.get? "DL_A" = some symbol) ∧
        t.symbols.get? "DL_B" = some (.resolved 0x20) ∧
        t.symbols.get? "DL_C" = some .external := by
  have hkept : ∀ quoted name, Keeps sharedLines quoted name ↔
      (quoted, name) ∈ [("X", "DL_B"), ("Y", "DL_C")] := fun quoted name => by
    rw [← get?_bankAliases_iff parse_sharedLines, OrderedMap.get?_eq_some_iff]
    rfl
  obtain ⟨t, ht, -, hliteral, halias⟩ :=
    defined_names parse_sharedLines stripped_sharedLines sharedTrailer 0x71 "DF"
  refine ⟨parse_sharedLines, stripped_sharedLines, t, ht, ?_, ?_, ?_, ?_⟩
  · exact hliteral ⟨"LUT 10".toList, 1⟩ (by decide +kernel) "LUT" 0x10 (by decide +kernel)
  · have hA := halias ⟨"DL_A BANK \"X\"".toList, 3⟩ (by decide +kernel) "X" "DL_A"
      (by decide +kernel)
    rw [hA.1]
    simp [hkept]
  · have hB := halias ⟨"DL_B BANK \"X\"".toList, 4⟩ (by decide +kernel) "X" "DL_B"
      (by decide +kernel)
    exact hB.2 (by decide) ((hkept _ _).mpr (by decide)) fun other hother => by
      simpa using (hkept other "DL_B").mp hother
  · have hC := halias ⟨"DL_C BANK \"Y\"".toList, 5⟩ (by decide +kernel) "Y" "DL_C"
      (by decide +kernel)
    exact hC.2 (by decide) ((hkept _ _).mpr (by decide)) fun other hother => by
      simpa using (hkept other "DL_C").mp hother

/-- **A name can be lost.** The lines are read, and the trailer knows what the third of them quotes,
but the name at its front is undefined. -/
theorem name_lost :
    (parse "shared" sharedLines).result = .ok sharedDictionary ∧
      (∃ l ∈ sharedLines, l.reading = some (.bankAlias "X" "DL_A")) ∧
      sharedTrailer.get? "X" = some 0x20 ∧
      ∃ t, (SymbolTable.ofSources sharedDictionary sharedTrailer 0x71 "DF").result = .ok t ∧
        t.symbols.get? "DL_A" = none := by
  refine ⟨parse_sharedLines, ⟨⟨"DL_A BANK \"X\"".toList, 3⟩, ?_, ?_⟩, rfl, _,
    SymbolTable.ofSources_eq_ok_iff.mpr rfl, ?_⟩ <;> decide +kernel

end Dictionary

end ModelPatch

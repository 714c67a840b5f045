import Mathlib
import ModelPatch.Proofs.DictionaryNames
import ModelPatch.Proofs.SymbolVersions

/-!
# The manifest has the last word about its literal names

The symbols of a build come from the manifest and from the asset, and a later source overrules an
earlier one. An asset may have been made by somebody else, and its trailer can hold any names, so it
must not be able to move a name to which the manifest gives an offset. It cannot, for the trailer
only resolves the names of bank aliases, and these begin with a mark with which no literal name
begins. The mark is looked for at the front of the line and not of the name, but a stripped line
begins with the name that it is about.

Labels cannot move a literal name either: a name that is taken is not defined again.

## Main definitions

* `Line.Gives`: the lines that give an offset to a name;
* `Dictionary.Settles`: the offset that some lines give to a name in the end.

## Main results

* `Line.reading_eq_literal_iff`: the lines of literal entries are those that give an offset;
* `Dictionary.get?_entries_iff`: a literal name has the offset on the last line that gives it one;
* `Dictionary.literal_names_stand`: that is what the name stands for in every version of the symbols
  of a build.
-/

namespace ModelPatch

/-! ### Lines -/

/-- The line gives an offset to a name: it does not begin with the mark of a bank alias, and it has
two words, which are the name and a number. -/
def Line.Gives (l : Line) (name : String) (offset : Nat) : Prop :=
  ¬ Entry.bankMark <+: l.content ∧
    ∃ value, Text.words l.content = [name.toList, value] ∧ Hex.parse value = .ok offset

theorem Entry.literalOfWords_eq_literal_iff {words : List (List Char)} {name : String}
    {offset : Nat} :
    literalOfWords words = .ok (.literal name offset) ↔
      ∃ value, words = [name.toList, value] ∧ Hex.parse value = .ok offset := by
  constructor
  · intro h
    unfold literalOfWords at h
    split at h
    · split at h
      · next hvalue =>
        obtain ⟨rfl, rfl⟩ := Entry.literal.inj (Except.ok.inj h)
        exact ⟨_, by rw [String.toList_ofList], hvalue⟩
      · cases h
    · cases h
  · rintro ⟨value, rfl, hvalue⟩
    simp [literalOfWords, hvalue]

/-- The lines of literal entries are those that give an offset to a name. -/
theorem Line.reading_eq_literal_iff {l : Line} {name : String} {offset : Nat} :
    l.reading = some (.literal name offset) ↔ l.Gives name offset := by
  rw [Line.reading_eq_some_iff, Line.Gives]
  by_cases hmark : Entry.bankMark <+: l.content
  · -- A line with the mark is read as a bank alias, if it is read at all.
    rw [Entry.ofContent_of_mark hmark]
    constructor
    · intro h
      obtain ⟨-, _, _, halias⟩ := Entry.head?_of_bankAliasOfWords h
      cases halias
    · rintro ⟨hnot, -⟩
      exact absurd hmark hnot
  · rw [Entry.ofContent_of_not_mark hmark, Entry.literalOfWords_eq_literal_iff, and_iff_right hmark]

namespace Dictionary

variable {file : String} {lines : List Line} {d : Dictionary} {name : String} {value : Nat}

/-! ### Literal entries -/

/-- The offset that some lines give to a name in the end: the last line that gives it one gives it
that one. -/
def Settles (lines : List Line) (name : String) (value : Nat) : Prop :=
  ∃ front l back, lines = front ++ l :: back ∧ l.Gives name value ∧
    ∀ l' ∈ back, ∀ other, ¬ l'.Gives name other

/-- A literal name has the offset on the last line that gives it one. -/
theorem get?_entries_iff (h : (parse file lines).result = .ok d) :
    d.entries.get? name = some value ↔ Settles lines name value := by
  rw [eq_ofList_of_parse h, OrderedMap.get?_ofList_filterMap_iff]
  simp only [Line.literal?_eq_some_iff, Line.reading_eq_literal_iff, ne_eq, Settles]

theorem exists_line_of_settles (h : Settles lines name value) :
    ∃ l ∈ lines, l.reading = some (.literal name value) := by
  obtain ⟨front, l, back, rfl, hl, -⟩ := h
  exact ⟨l, List.mem_append_right _ List.mem_cons_self, Line.reading_eq_literal_iff.mpr hl⟩

/-! ### The mark -/

/-- No literal name begins with the mark of a bank alias. -/
theorem not_bankMark_prefix_of_mem_keys (h : (parse file lines).result = .ok d)
    (hlines : ∀ l ∈ lines, Text.strip l.content = l.content) (hname : name ∈ d.entries.keys) :
    ¬ Entry.bankMark <+: name.toList := by
  intro hmark
  obtain ⟨value, hvalue⟩ := OrderedMap.mem_keys_iff.mp hname
  obtain ⟨l, hl, hentry⟩ := exists_line_of_settles ((get?_entries_iff h).mp hvalue)
  obtain ⟨_, _, hsort⟩ := (Entry.bankMark_prefix_name_iff (Line.reading_eq_some_iff.mp hentry)
    (hlines l hl)).mp hmark
  cases hsort

/-- The name of every bank alias does. -/
theorem bankMark_prefix_of_mem_values (h : (parse file lines).result = .ok d)
    (hlines : ∀ l ∈ lines, Text.strip l.content = l.content) (hname : name ∈ d.bankAliases.values) :
    Entry.bankMark <+: name.toList := by
  obtain ⟨quoted, hquoted⟩ := OrderedMap.mem_values_iff.mp hname
  obtain ⟨l, hl, hentry⟩ := exists_line_of_keeps ((get?_bankAliases_iff h).mp hquoted)
  exact (Entry.bankMark_prefix_name_iff (Line.reading_eq_some_iff.mp hentry)
    (hlines l hl)).mpr ⟨quoted, name, rfl⟩

/-! ### The symbols of a build -/

/-- **The manifest has the last word about its literal names.** If stripped lines are read, as the
lines of a text are, then the literal names are those to which a line gives an offset, no literal
name begins with the mark of a bank alias, and the name of every bank alias does. So each literal
name but that of the placeholder stands for the offset on the last line that gives it one, whatever
the trailer holds and whatever definitions have been tried since. -/
theorem literal_names_stand (h : (parse file lines).result = .ok d)
    (hlines : ∀ l ∈ lines, Text.strip l.content = l.content) :
    (∀ name value, d.entries.get? name = some value ↔ Settles lines name value) ∧
      (∀ name ∈ d.entries.keys, ¬ Entry.bankMark <+: name.toList) ∧
      (∀ name ∈ d.bankAliases.values, Entry.bankMark <+: name.toList) ∧
      ∀ (trailer : Trailer) (offset : Int) (placeholder : String),
        ∃ t, (SymbolTable.ofSources d trailer offset placeholder).result = .ok t ∧
          ∀ (tried : List Attempt) (name : String) (value : Nat),
            Settles lines name value → name ≠ placeholder →
              ((t.newest tried).lookup name).result = .ok (.resolved value) := by
  refine ⟨fun name value => get?_entries_iff h,
    fun name => not_bankMark_prefix_of_mem_keys h hlines,
    fun name => bankMark_prefix_of_mem_values h hlines, ?_⟩
  intro trailer offset placeholder
  obtain ⟨t, ht⟩ := SymbolTable.exists_ofSources d trailer offset placeholder
  refine ⟨t, ht, ?_⟩
  intro tried name value hvalue hplaceholder
  have hentry : d.entries.get? name = some value := (get?_entries_iff h).mpr hvalue
  have halias : name ∉ d.bankAliases.values := by
    intro hmem
    have hkey : name ∈ d.entries.keys := OrderedMap.mem_keys_iff.mpr ⟨value, hentry⟩
    exact not_bankMark_prefix_of_mem_keys h hlines hkey
      (bankMark_prefix_of_mem_values h hlines hmem)
  have hfirst : t.symbols.get? name = some (.resolved value) := by
    rw [SymbolTable.get?_ofSources_literal ht hplaceholder halias, hentry]
    rfl
  exact SymbolTable.lookup_eq_ok_iff.mpr
    ((SymbolTable.isVersion_newest t tried).growsTo.get? name _ hfirst)

/-! ### A trailer that knows a literal name

The trailer has an entry with the literal name, a bank alias is known under a similar name, and the
literal name is defined again by another line and then by two labels. -/

/-- A literal entry, a bank alias that quotes its name, and another offset for the name. -/
def rivalLines : List Line :=
  Line.ofText "LUT 10\nDL_LUT BANK \"LUT\"\nLUT 0x20 // again".toList

/-- What these lines say. -/
def rivalDictionary : Dictionary :=
  ⟨⟨[("LUT", 0x20)], by decide⟩, ⟨[("LUT", "DL_LUT")], by decide⟩⟩

theorem parse_rivalLines : (parse "rival" rivalLines).result = .ok rivalDictionary := by
  decide +kernel

/-- The name stands for the offset on the last of its lines. -/
theorem literal_names_stand_rival :
    (parse "rival" rivalLines).result = .ok rivalDictionary ∧
      (∀ l ∈ rivalLines, Text.strip l.content = l.content) ∧
      ∃ t, (SymbolTable.ofSources rivalDictionary ⟨[("LUT", 0x30)], by decide⟩ 0x71 "DF").result =
          .ok t ∧
        ((t.newest [⟨"LUT", 0x40, none⟩, ⟨"A", 0x50, none⟩]).lookup "LUT").result =
          .ok (.resolved 0x20) := by
  have hlines : ∀ l ∈ rivalLines, Text.strip l.content = l.content :=
    fun _ => Line.strip_content_of_mem_ofText
  obtain ⟨hsettles, -, -, hstand⟩ := literal_names_stand parse_rivalLines hlines
  obtain ⟨t, ht, hlookup⟩ := hstand ⟨[("LUT", 0x30)], by decide⟩ 0x71 "DF"
  refine ⟨parse_rivalLines, hlines, t, ht, ?_⟩
  exact hlookup _ "LUT" 0x20 ((hsettles "LUT" 0x20).mp (by decide +kernel)) (by decide)

end Dictionary

end ModelPatch

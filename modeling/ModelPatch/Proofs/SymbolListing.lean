import Mathlib
import ModelPatch.Proofs.HexText
import ModelPatch.Proofs.OrderedMaps
import ModelPatch.Symbols.Table

/-!
# The listing of a symbol table

A symbol table is listed with one name to a line. The names are padded to the width of the longest
one, so that all symbols start in one column, but a symbol may be wider than the eight digits that
most have, and a name may look like a symbol. Still nothing can be confused: names hold no blanks,
the gap is made of spaces, and what is shown of a symbol holds no blanks either. So the two words of
a line are the name and the symbol, whatever they look like.

## Main definitions

* `Symbol.read?`: the symbol that a text shows;
* `SymbolTable.IsListable`: a name that is one word, with a symbol that has no negative offset;
* `SymbolTable.ShowsSymbol`: a line that shows a name and its symbol;
* `SymbolTable.listedLines`, `SymbolTable.readListing?`: the lines of a listing, and what they show.

## Main results

* `Text.words_pair`: two texts with blanks between them are two words;
* `Symbol.read?_text`: the text of a symbol is read back;
* `SymbolTable.listedLines_listing`: the lines of a listing are the rows of its table;
* `SymbolTable.mapM_readRow?`: the rows of a listing are read back;
* `SymbolTable.listing_reads_back`: a listing is a table, line by line and in order.
-/

namespace ModelPatch

/-! ### Words -/

namespace Text

/-- Blanks in front of a text do not make a word. -/
theorem words_blanks_append {blanks : List Char} (h : ∀ c ∈ blanks, isBlank c = true)
    (cs : List Char) : words (blanks ++ cs) = words cs := by
  induction blanks with
  | nil => rfl
  | cons c blanks ih =>
    rw [List.forall_mem_cons] at h
    rw [← ih h.2]
    exact words_append_cons h.1 [] (blanks ++ cs)

/-- Two texts without blanks are two words if there are blanks between them. -/
theorem words_pair {front gap back : List Char} (hfront : front ≠ []) (hback : back ≠ [])
    (hgap : gap ≠ []) (hfrontFree : ∀ c ∈ front, isBlank c = false)
    (hbackFree : ∀ c ∈ back, isBlank c = false) (hblank : ∀ c ∈ gap, isBlank c = true) :
    words (front ++ (gap ++ back)) = [front, back] := by
  obtain ⟨c, rest, rfl⟩ := List.exists_cons_of_ne_nil hgap
  rw [List.forall_mem_cons] at hblank
  rw [List.cons_append, words_append_cons hblank.1, words_blanks_append hblank.2,
    words_eq_singleton hfront hfrontFree, words_eq_singleton hback hbackFree]
  rfl

end Text

/-! ### Symbols -/

namespace Symbol

variable {s : Symbol}

/-- A symbol has no negative offset. -/
def IsNonneg (s : Symbol) : Prop :=
  ∀ offset, s = resolved offset → 0 ≤ offset

/-- What a text shows: an external symbol, or one with an offset. -/
def read? (text : List Char) : Option Symbol :=
  if text = "EXTERNAL".toList then some external
  else (Hex.parse text).toOption.map fun n => resolved n

theorem toList_text_external : external.text.toList = "EXTERNAL".toList := rfl

theorem toList_text_resolved (n : Nat) :
    (resolved n).text.toList = '0' :: 'x' :: Hex.padded 8 n :=
  Hex.toList_showPadded n

theorem text_ne_nil (h : s.IsNonneg) : s.text.toList ≠ [] := by
  cases s with
  | external => decide
  | resolved offset =>
    obtain ⟨n, rfl⟩ := Int.eq_ofNat_of_zero_le (h offset rfl)
    simp [toList_text_resolved]

theorem blankFree_text (h : s.IsNonneg) : ∀ c ∈ s.text.toList, isBlank c = false := by
  cases s with
  | external => simp [toList_text_external, isBlank]
  | resolved offset =>
    obtain ⟨n, rfl⟩ := Int.eq_ofNat_of_zero_le (h offset rfl)
    have hpadded : ∀ c ∈ Hex.padded 8 n, isBlank c = false := Hex.forall_mem_padded (by decide) 8 n
    rw [toList_text_resolved, List.forall_mem_cons, List.forall_mem_cons]
    exact ⟨by decide, by decide, hpadded⟩

/-- **The text of a symbol is read back.** An offset has a mark in front, so that it is not mistaken
for an external symbol. -/
theorem read?_text (h : s.IsNonneg) : read? s.text.toList = some s := by
  cases s with
  | external => rfl
  | resolved offset =>
    obtain ⟨n, rfl⟩ := Int.eq_ofNat_of_zero_le (h offset rfl)
    have hmark : (resolved n).text.toList ≠ "EXTERNAL".toList := by simp [toList_text_resolved]
    rw [read?, if_neg hmark, text, Hex.parse_showPadded]
    rfl

end Symbol

/-! ### Rows -/

namespace SymbolTable

variable {t : SymbolTable} {column : Nat} {line : List Char} {name : String} {symbol : Symbol}

/-- A name that is one word, with a symbol that has no negative offset. -/
structure IsListable (name : String) (symbol : Symbol) : Prop where
  /-- The name is not empty. -/
  name_ne : name ≠ ""
  /-- It holds no blank. -/
  blankFree : ∀ c ∈ name.toList, isBlank c = false
  /-- The offset is not negative. -/
  nonneg : symbol.IsNonneg

/-- A line shows a name and, behind spaces, its symbol, which starts in the given column. -/
def ShowsSymbol (column : Nat) (line : List Char) (name : String) (symbol : Symbol) : Prop :=
  ∃ gap, line = name.toList ++ (gap ++ symbol.text.toList) ∧ gap ≠ [] ∧ (∀ c ∈ gap, c = ' ') ∧
    (name.toList ++ gap).length = column

/-- The name and the symbol in a line, which are its two words. -/
def readRow? (line : List Char) : Option (String × Symbol) :=
  match Text.words line with
  | [name, value] => (Symbol.read? value).map fun symbol => (String.ofList name, symbol)
  | _ => none

/-- The lines of a listing. An empty listing has none. -/
def listedLines (listing : String) : List (List Char) :=
  if listing = "" then [] else listing.toList.splitOn '\n'

/-- The names and the offsets in a listing. -/
def readListing? (listing : String) : Option (List (String × Option Int)) :=
  ((listedLines listing).mapM readRow?).map fun rows => rows.map fun p => (p.1, p.2.offset?)

/-- No name is longer than the column of names is wide. -/
theorem length_le_width {p : String × Symbol} (h : p ∈ t.symbols.entries) :
    p.1.length ≤ t.width := by
  have hmem : p.1.length ∈ t.symbols.keys.map String.length :=
    List.mem_map_of_mem (List.mem_map_of_mem h)
  rw [width, ← List.foldr_eq_foldl]
  exact List.le_max_of_le' 0 hmem le_rfl

theorem showsSymbol_row {width : Nat} (h : name.length ≤ width) (symbol : Symbol) :
    ShowsSymbol (width + 2) (row width name symbol).toList name symbol := by
  refine ⟨List.replicate (width - name.length) ' ' ++ [' ', ' '], ?_, by simp, ?_, ?_⟩
  · simp [row]
  · intro c hc
    rcases List.mem_append.mp hc with hpad | hsep
    · exact List.eq_of_mem_replicate hpad
    · simpa using hsep
  · simp only [List.length_append, List.length_replicate, List.length_cons, List.length_nil,
      String.length_toList]
    omega

/-- The only blanks in a line are spaces. -/
theorem ShowsSymbol.eq_space (h : ShowsSymbol column line name symbol)
    (hlist : IsListable name symbol) : ∀ c ∈ line, isBlank c = true → c = ' ' := by
  obtain ⟨gap, rfl, -, hspaces, -⟩ := h
  intro c hc hblank
  simp only [List.mem_append] at hc
  rcases hc with hname | hgap | htext
  · simp [hlist.blankFree c hname] at hblank
  · exact hspaces c hgap
  · simp [Symbol.blankFree_text hlist.nonneg c htext] at hblank

/-- **A line is read back.** -/
theorem ShowsSymbol.readRow?_eq (h : ShowsSymbol column line name symbol)
    (hlist : IsListable name symbol) : readRow? line = some (name, symbol) := by
  obtain ⟨gap, rfl, hne, hspaces, -⟩ := h
  have hgap : ∀ c ∈ gap, isBlank c = true := by
    intro c hc
    rw [hspaces c hc]
    decide
  have hwords := Text.words_pair (by simpa using hlist.name_ne) (Symbol.text_ne_nil hlist.nonneg)
    hne hlist.blankFree (Symbol.blankFree_text hlist.nonneg) hgap
  simp [readRow?, hwords, Symbol.read?_text hlist.nonneg]

/-! ### Listings -/

theorem toList_listing (t : SymbolTable) :
    t.listing.toList =
      ['\n'].intercalate (t.symbols.entries.map fun p => (row t.width p.1 p.2).toList) := by
  rw [listing, String.toList_intercalate, List.map_map]
  rfl

/-- Only an empty table has an empty listing, because there is a gap in every line. -/
theorem listing_eq_empty_iff (t : SymbolTable) : t.listing = "" ↔ t.symbols.entries = [] := by
  rw [← String.toList_eq_nil_iff, toList_listing]
  cases hentries : t.symbols.entries with
  | nil => simp
  | cons p rest =>
    have hp : p ∈ t.symbols.entries := by simp [hentries]
    obtain ⟨gap, hrow, hgap, -⟩ := showsSymbol_row (length_le_width hp) p.2
    cases rest <;> simp [hrow, hgap]

/-- **The lines of a listing are the rows of its table.** -/
theorem listedLines_listing (h : ∀ p ∈ t.symbols.entries, IsListable p.1 p.2) :
    listedLines t.listing = t.symbols.entries.map fun p => (row t.width p.1 p.2).toList := by
  rw [listedLines]
  split
  · next hempty => rw [(listing_eq_empty_iff t).mp hempty, List.map_nil]
  · next hne =>
    rw [toList_listing, List.splitOn_intercalate]
    · intro line hline hfeed
      obtain ⟨p, hp, rfl⟩ := List.mem_map.mp hline
      have hshows := showsSymbol_row (length_le_width hp) p.2
      exact absurd (hshows.eq_space (h p hp) '\n' hfeed (by decide)) (by decide)
    · simpa using mt (listing_eq_empty_iff t).mpr hne

/-- **The rows of a listing are read back.** -/
theorem mapM_readRow? (h : ∀ p ∈ t.symbols.entries, IsListable p.1 p.2) :
    (listedLines t.listing).mapM readRow? = some t.symbols.entries := by
  rw [listedLines_listing h, mapM_eq_some_iff, List.forall₂_map_left_iff, List.forall₂_same]
  exact fun p hp => (showsSymbol_row (length_le_width hp) p.2).readRow?_eq (h p hp)

/-- **A listing is a table, line by line and in order.** If all names of a table are words and no
offset is negative, each line of its listing shows one symbol, and all symbols start in the same
column. The words of the lines are read back as the names and the offsets of the table, so tables
with the same listing have the same symbols in the same order. -/
theorem listing_reads_back (t : SymbolTable) (h : ∀ p ∈ t.symbols.entries, IsListable p.1 p.2) :
    (∃ column, List.Forall₂ (fun line p => ShowsSymbol column line p.1 p.2)
      (listedLines t.listing) t.symbols.entries) ∧
    (t.listing = "" ↔ t.symbols.size = 0) ∧
    readListing? t.listing = some t.offsets ∧
    ∀ other : SymbolTable, (∀ p ∈ other.symbols.entries, IsListable p.1 p.2) →
      (t.listing = other.listing ↔ t.symbols = other.symbols) := by
  refine ⟨⟨t.width + 2, ?_⟩, ?_, ?_, fun other hother => ⟨fun hsame => ?_, fun hsame => ?_⟩⟩
  · rw [listedLines_listing h, List.forall₂_map_left_iff, List.forall₂_same]
    exact fun p hp => showsSymbol_row (length_le_width hp) p.2
  · rw [listing_eq_empty_iff, OrderedMap.size, List.length_eq_zero_iff]
  · rw [readListing?, mapM_readRow? h]
    rfl
  · have hread := mapM_readRow? h
    rw [hsame, mapM_readRow? hother] at hread
    exact OrderedMap.eq_of_entries_eq (Option.some.inj hread).symm
  · rw [listing, listing, width, width, hsame]

/-- A table in which names look like symbols, and one symbol has more digits than the others. -/
def confusingTable : SymbolTable where
  symbols := .ofList
    [("EXTERNAL", .resolved 0x10), ("0x00000010", .external), ("é", .resolved 0x123456789)]
  placeholder := "é"

/-- The names of this table are told from its symbols. -/
theorem listing_reads_back_confusing :
    (∀ p ∈ confusingTable.symbols.entries, IsListable p.1 p.2) ∧
      readListing? confusingTable.listing =
        some [("EXTERNAL", some 0x10), ("0x00000010", none), ("é", some 0x123456789)] := by
  have hentries : confusingTable.symbols.entries =
      [("EXTERNAL", .resolved 0x10), ("0x00000010", .external), ("é", .resolved 0x123456789)] := by
    decide
  have hlist : ∀ p ∈ confusingTable.symbols.entries, IsListable p.1 p.2 := by
    rw [hentries]
    simp only [List.forall_mem_cons, List.not_mem_nil, IsEmpty.forall_iff, implies_true, and_true]
    exact ⟨⟨by decide, by simp [isBlank], by simp [Symbol.IsNonneg]⟩,
      ⟨by decide, by simp [isBlank], by simp [Symbol.IsNonneg]⟩,
      ⟨by decide, by simp [isBlank], by simp [Symbol.IsNonneg]⟩⟩
  refine ⟨hlist, ?_⟩
  rw [(listing_reads_back confusingTable hlist).2.2.1, offsets, hentries]
  rfl

end SymbolTable

end ModelPatch

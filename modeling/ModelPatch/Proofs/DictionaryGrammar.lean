import Mathlib
import ModelPatch.Proofs.LiteralNames

/-!
# Which lines make a dictionary

A line that begins with the mark of a bank alias must quote one text, and any other line must have
two words, the second of which is a number. A dictionary is read if all its lines are like that, or
empty. It records what they say: the last line about a name or about a quoted text decides, and the
first one determines the place. So what more lines say can be added afterwards, and the first line
that is not like that is the one that is reported.

The words of a quotation are put together again with single spaces, so that it does not matter how
far apart they stand.

## Main definitions

* `Line.Quotes`: the lines that quote a text for a name;
* `Line.IsWellFormed`: the lines that can be read;
* `Dictionary.update`: a dictionary with another one added to it.

## Main results

* `Line.reading_eq_bankAlias_iff`: the lines of bank aliases are those that quote a text;
* `Line.isSome_reading_iff`: the lines that can be read;
* `Dictionary.ofLines_append`: what lines say one behind the other;
* `Dictionary.result_parse_of_first`: the first line that cannot be read is reported;
* `Dictionary.parse_grammar`: which lines are read, and what for.
-/

namespace ModelPatch

/-! ### Quotations -/

/-- The words behind the second one, with single spaces between them. -/
def Entry.quotation (words : List (List Char)) : List Char :=
  [' '].intercalate (words.drop 2)

/-- The line quotes a text for a name: it begins with the mark of a bank alias, its first word is
the name, and behind the second word there are two quotes, with the text between them. -/
def Line.Quotes (l : Line) (quoted name : String) : Prop :=
  Entry.bankMark <+: l.content ∧ 3 ≤ (Text.words l.content).length ∧
    (Text.words l.content).head? = some name.toList ∧
    ∃ front back,
      Entry.quotation (Text.words l.content) = front ++ '"' :: (quoted.toList ++ '"' :: back) ∧
        '"' ∉ front ∧ '"' ∉ quoted.toList ∧ '"' ∉ back

/-- A line that can be read: a bank alias with one quotation, or a name and a number. -/
def Line.IsWellFormed (l : Line) : Prop :=
  (Entry.bankMark <+: l.content ∧ 3 ≤ (Text.words l.content).length ∧
      (Entry.quotation (Text.words l.content)).count '"' = 2) ∨
    (¬ Entry.bankMark <+: l.content ∧
      ∃ name value, Text.words l.content = [name, value] ∧ ∃ offset, Hex.parse value = .ok offset)

namespace Entry

variable {words : List (List Char)} {quoted name : String}

theorem bankAliasOfWords_eq_bankAlias_iff :
    bankAliasOfWords words = .ok (.bankAlias quoted name) ↔
      3 ≤ words.length ∧ words.head? = some name.toList ∧
        ∃ front back, (quotation words).splitOn '"' = [front, quoted.toList, back] := by
  constructor
  · intro h
    unfold bankAliasOfWords at h
    split at h
    · split at h
      · next hsplit =>
        obtain ⟨rfl, rfl⟩ := Entry.bankAlias.inj (Except.ok.inj h)
        rw [String.toList_ofList, String.toList_ofList]
        exact ⟨by simp, rfl, _, _, hsplit⟩
      · cases h
    · cases h
  · rintro ⟨hlength, hhead, front, back, hsplit⟩
    match words, hlength, hhead, hsplit with
    | first :: second :: third :: rest, _, hhead, hsplit =>
      obtain rfl := Option.some.inj hhead
      rw [quotation, List.drop_succ_cons, List.drop_succ_cons, List.drop_zero] at hsplit
      simp [bankAliasOfWords, hsplit]

/-- Two quotes are around one quoted text. -/
theorem exists_bankAliasOfWords_iff :
    (∃ e, bankAliasOfWords words = .ok e) ↔
      3 ≤ words.length ∧ (quotation words).count '"' = 2 := by
  have hpieces : (quotation words).count '"' = 2 ↔
      ∃ front quoted back, (quotation words).splitOn '"' = [front, quoted, back] := by
    rw [← List.length_eq_three, Text.length_splitOn]
    omega
  rw [hpieces]
  constructor
  · rintro ⟨e, h⟩
    obtain ⟨-, quoted, name, rfl⟩ := head?_of_bankAliasOfWords h
    obtain ⟨hlength, -, front, back, hsplit⟩ := bankAliasOfWords_eq_bankAlias_iff.mp h
    exact ⟨hlength, front, quoted.toList, back, hsplit⟩
  · rintro ⟨hlength, front, quoted, back, hsplit⟩
    obtain ⟨first, rest, rfl⟩ : ∃ first rest, words = first :: rest :=
      List.exists_cons_of_length_pos (by omega)
    refine ⟨.bankAlias (String.ofList quoted) (String.ofList first),
      bankAliasOfWords_eq_bankAlias_iff.mpr ⟨hlength, ?_, front, back, ?_⟩⟩
    · rw [List.head?_cons, String.toList_ofList]
    · rw [hsplit, String.toList_ofList]

theorem exists_literalOfWords_iff :
    (∃ e, literalOfWords words = .ok e) ↔
      ∃ name value, words = [name, value] ∧ ∃ offset, Hex.parse value = .ok offset := by
  constructor
  · rintro ⟨e, h⟩
    obtain ⟨-, name, offset, rfl⟩ := head?_of_literalOfWords h
    obtain ⟨value, rfl, hvalue⟩ := literalOfWords_eq_literal_iff.mp h
    exact ⟨_, value, rfl, offset, hvalue⟩
  · rintro ⟨name, value, rfl, offset, hvalue⟩
    refine ⟨.literal (String.ofList name) offset,
      literalOfWords_eq_literal_iff.mpr ⟨value, ?_, hvalue⟩⟩
    rw [String.toList_ofList]

end Entry

/-! ### Lines -/

namespace Line

variable {l : Line} {quoted name : String}

/-- The lines of bank aliases are those that quote a text. -/
theorem reading_eq_bankAlias_iff :
    l.reading = some (.bankAlias quoted name) ↔ l.Quotes quoted name := by
  have hpieces : ∀ text front back : List Char,
      text.splitOn '"' = [front, quoted.toList, back] ↔
        text = front ++ '"' :: (quoted.toList ++ '"' :: back) ∧
          '"' ∉ front ∧ '"' ∉ quoted.toList ∧ '"' ∉ back := by
    intro text front back
    rw [Text.splitOn_eq_iff (by simp)]
    simp [List.intercalate]
  rw [reading_eq_some_iff, Quotes]
  by_cases hmark : Entry.bankMark <+: l.content
  · rw [Entry.ofContent_of_mark hmark, Entry.bankAliasOfWords_eq_bankAlias_iff, and_iff_right hmark]
    simp only [hpieces]
  · -- A line without the mark is read as a literal entry, if it is read at all.
    rw [Entry.ofContent_of_not_mark hmark]
    constructor
    · intro h
      obtain ⟨-, _, _, hliteral⟩ := Entry.head?_of_literalOfWords h
      cases hliteral
    · rintro ⟨hstart, -⟩
      exact absurd hstart hmark

theorem gives_iff_literal? (l : Line) (name : String) (offset : Nat) :
    l.Gives name offset ↔ l.literal? = some (name, offset) := by
  rw [literal?_eq_some_iff, reading_eq_literal_iff]

theorem quotes_iff_bankAlias? (l : Line) (quoted name : String) :
    l.Quotes quoted name ↔ l.bankAlias? = some (quoted, name) := by
  rw [bankAlias?_eq_some_iff, reading_eq_bankAlias_iff]

/-- The lines that can be read. -/
theorem isSome_reading_iff : l.reading.isSome ↔ l.IsWellFormed := by
  simp only [Option.isSome_iff_exists, reading_eq_some_iff]
  rw [IsWellFormed]
  by_cases hmark : Entry.bankMark <+: l.content
  · rw [Entry.ofContent_of_mark hmark, Entry.exists_bankAliasOfWords_iff]
    simp [hmark]
  · rw [Entry.ofContent_of_not_mark hmark, Entry.exists_literalOfWords_iff]
    simp [hmark]

instance (l : Line) : Decidable l.IsWellFormed :=
  decidable_of_iff _ isSome_reading_iff

end Line

/-! ### Dictionaries -/

namespace Dictionary

variable {file : String} {lines : List Line} {d : Dictionary} {l : Line}

/-- The dictionary with another one added to it. -/
def update (d₁ d₂ : Dictionary) : Dictionary :=
  ⟨d₁.entries.update d₂.entries, d₁.bankAliases.update d₂.bankAliases⟩

/-- What some lines say. -/
def ofLines (lines : List Line) : Dictionary :=
  ⟨.ofList (lines.filterMap Line.literal?), .ofList (lines.filterMap Line.bankAlias?)⟩

/-- What lines say one behind the other. -/
theorem ofLines_append (lines others : List Line) :
    ofLines (lines ++ others) = (ofLines lines).update (ofLines others) := by
  simp only [ofLines, update, List.filterMap_append, OrderedMap.ofList_append]

theorem result_parse_eq_ok_iff :
    (parse file lines).result = .ok d ↔
      (∀ l ∈ lines, l.isEmpty = false → l.IsWellFormed) ∧ d = ofLines lines := by
  rw [parse_eq_ok_iff, foldl_add, List.filterMap_filterMap, List.filterMap_filterMap]
  simp only [Line.isSome_reading_iff]
  rfl

/-- A dictionary is what its lines say if it records the literal entries and the bank aliases. -/
theorem eq_ofLines_iff :
    d = ofLines lines ↔
      d.entries.Records lines Line.Gives ∧ d.bankAliases.Records lines Line.Quotes := by
  rw [OrderedMap.records_iff Line.gives_iff_literal?,
    OrderedMap.records_iff Line.quotes_iff_bankAlias?, ofLines]
  cases d
  rw [Dictionary.mk.injEq]

/-- **The first line that cannot be read is reported**, whatever stands behind it. -/
theorem result_parse_of_first {front : List Line} {fault : Malformed}
    (hfront : ∀ l ∈ front, l.isEmpty = false → l.IsWellFormed) (hempty : l.isEmpty = false)
    (hfault : Entry.ofContent l.content = .error fault) (back : List Line) :
    (parse file (front ++ l :: back)).result =
      .error (.refused ⟨.malformed fault, some (l.location file)⟩) := by
  have hread : (parse file front).result = .ok (ofLines front) :=
    result_parse_eq_ok_iff.mpr ⟨hfront, rfl⟩
  have hline : (addLine file (ofLines front) l).result =
      .error (.refused ⟨.malformed fault, some (l.location file)⟩) := by
    rw [addLine, hempty, hfault]
    exact result_refuse _ fault
  rw [parse] at hread ⊢
  rw [List.foldlM_append, Build.result_bind_eq_error_iff]
  refine .inr ⟨ofLines front, hread, ?_⟩
  rw [List.foldlM_cons, Build.result_bind_eq_error_iff]
  exact .inl hline

/-- **Which lines are read, and what for.** A dictionary is read exactly if every line that is not
empty is well formed, and then it records what its lines say: a name has the offset on the last line
that gives it one, a quoted text has the name on the last line that quotes it, and both stand where
the first line about them is. What more lines say is added to it. Where a line is not well formed,
the first such line is reported, whatever stands behind it. -/
theorem parse_grammar (file : String) (lines : List Line) :
    ((∃ d, (parse file lines).result = .ok d) ↔
        ∀ l ∈ lines, l.isEmpty = false → l.IsWellFormed) ∧
      (∀ d, (parse file lines).result = .ok d ↔
        (∀ l ∈ lines, l.isEmpty = false → l.IsWellFormed) ∧
          d.entries.Records lines Line.Gives ∧ d.bankAliases.Records lines Line.Quotes) ∧
      (∀ others d, (parse file (lines ++ others)).result = .ok d ↔
        ∃ d₁ d₂, (parse file lines).result = .ok d₁ ∧ (parse file others).result = .ok d₂ ∧
          d = d₁.update d₂) ∧
      ∀ front l back, lines = front ++ l :: back →
        (∀ l' ∈ front, l'.isEmpty = false → l'.IsWellFormed) →
        l.isEmpty = false → ¬ l.IsWellFormed →
        ∃ fault, ∀ others, (parse file (front ++ l :: others)).result =
          .error (.refused ⟨.malformed fault, some (l.location file)⟩) := by
  refine ⟨?_, fun d => ?_, fun others d => ?_, ?_⟩
  · simp [result_parse_eq_ok_iff]
  · rw [result_parse_eq_ok_iff, eq_ofLines_iff]
  · simp only [result_parse_eq_ok_iff, List.forall_mem_append]
    constructor
    · rintro ⟨⟨hlines, hothers⟩, rfl⟩
      exact ⟨_, _, ⟨hlines, rfl⟩, ⟨hothers, rfl⟩, ofLines_append lines others⟩
    · rintro ⟨_, _, ⟨hlines, rfl⟩, ⟨hothers, rfl⟩, rfl⟩
      exact ⟨⟨hlines, hothers⟩, (ofLines_append lines others).symm⟩
  · rintro front l back rfl hfront hempty hbad
    cases hread : Entry.ofContent l.content with
    | ok e =>
      have hsays : l.reading.isSome :=
        Option.isSome_iff_exists.mpr ⟨e, Line.reading_eq_some_iff.mpr hread⟩
      exact absurd (Line.isSome_reading_iff.mp hsays) hbad
    | error fault =>
      exact ⟨fault, fun others => result_parse_of_first hfront hempty hread others⟩

/-! ### Names and quoted texts that come up again -/

/-- A literal name that comes up again, and a text that is quoted again with other blanks. -/
def repeatedLines : List Line :=
  Line.ofText "LUT 10\nDL_A BANK \"X  Y\"\n\nROW 0x20\nDL_B of \"X Y\" // again\nLUT 30".toList

/-- What these lines say. -/
def repeatedDictionary : Dictionary :=
  ⟨⟨[("LUT", 0x30), ("ROW", 0x20)], by decide⟩, ⟨[("X Y", "DL_B")], by decide⟩⟩

/-- A quotation without an end. -/
def brokenLine : Line := ⟨"DL_C BANK \"Z".toList, 7⟩

/-- The names and the quoted text stand in their first places, and have their last values. With the
quotation behind them, the lines are not read. -/
theorem parse_grammar_repeated :
    (parse "again" repeatedLines).result = .ok repeatedDictionary ∧
      (∀ l ∈ repeatedLines, l.isEmpty = false → l.IsWellFormed) ∧
      repeatedDictionary.entries.Records repeatedLines Line.Gives ∧
      repeatedDictionary.bankAliases.Records repeatedLines Line.Quotes ∧
      (∃ d₁ d₂, (parse "again" (repeatedLines.take 3)).result = .ok d₁ ∧
        (parse "again" (repeatedLines.drop 3)).result = .ok d₂ ∧
        repeatedDictionary = d₁.update d₂) ∧
      ¬ brokenLine.IsWellFormed ∧
      ∃ fault, ∀ others, (parse "again" (repeatedLines ++ brokenLine :: others)).result =
        .error (.refused ⟨.malformed fault, some ⟨"again", 7⟩⟩) := by
  have hparse : (parse "again" repeatedLines).result = .ok repeatedDictionary := by
    decide +kernel
  have hbroken : ¬ brokenLine.IsWellFormed := by decide +kernel
  obtain ⟨-, hwhole, -, -⟩ := parse_grammar "again" repeatedLines
  obtain ⟨-, -, hparts, -⟩ := parse_grammar "again" (repeatedLines.take 3)
  obtain ⟨-, -, -, hfirst⟩ := parse_grammar "again" (repeatedLines ++ [brokenLine])
  obtain ⟨hlines, hentries, haliases⟩ := (hwhole repeatedDictionary).mp hparse
  refine ⟨hparse, hlines, hentries, haliases, ?_, hbroken, ?_⟩
  · exact (hparts (repeatedLines.drop 3) repeatedDictionary).mp
      (by rwa [List.take_append_drop])
  · exact hfirst repeatedLines brokenLine [] rfl hlines (by decide) hbroken

end Dictionary

end ModelPatch

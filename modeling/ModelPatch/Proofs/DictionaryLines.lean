import Mathlib
import ModelPatch.Proofs.Drafts
import ModelPatch.Proofs.HexText

/-!
# Entries that are written are read back

The line of a literal entry has two words. The line of a bank alias has more, because the quoted
name may hold spaces: it is taken apart at them and put together again.

## Main results

* `Entry.ofContent_line`: an entry is read back from its line;
* `Entry.isPlain_line`, `Entry.not_prefix_line`: the line of an entry is plain, and does not begin
  the pool;
* `Dictionary.result_foldlM_lines`: the entries are read one behind the other.
-/

namespace ModelPatch

/-! ### Entries -/

namespace Entry

variable {e : Entry}

theorem isWord_quote : Text.IsWord ['"'] :=
  Text.isWord_singleton (by decide)

/-- Quotes do not make two characters stand next to each other. -/
theorem not_infix_quoted {a : Char} {cs : List Char} (ha : a ≠ '"') (h : ¬ [a, a] <:+: cs) :
    ¬ [a, a] <:+: '"' :: (cs ++ ['"']) := by
  have hquote : '"' ∉ [a, a] := by simp [ha.symm]
  have hback : ¬ [a, a] <:+: cs ++ ['"'] :=
    Text.not_infix_append_cons hquote h (by simp)
  have hall : ¬ [a, a] <:+: [] ++ '"' :: (cs ++ ['"']) :=
    Text.not_infix_append_cons hquote (by simp) hback
  exact hall

/-- A quoted text is taken apart into words and put together again. -/
theorem intercalate_words_quoted {cs : List Char} (h : Text.IsQuotable cs) :
    [' '].intercalate (Text.words ('"' :: (cs ++ ['"']))) = '"' :: (cs ++ ['"']) := by
  refine Text.intercalate_words ?_ (not_infix_quoted (by decide) h.single) (by simp) ?_
  · intro c hc hblank
    simp only [List.mem_cons, List.mem_append, List.not_mem_nil, or_false] at hc
    rcases hc with rfl | hc | rfl
    · simp [isWord_quote.blankFree] at hblank
    · exact h.spaces c hc hblank
    · simp [isWord_quote.blankFree] at hblank
  · rw [← List.cons_append, List.getLast?_concat]
    decide

/-- An entry is read back from its line. -/
theorem ofContent_line (h : e.IsWritable) : ofContent e.line = .ok e := by
  cases e with
  | literal name offset =>
    obtain ⟨hname, hmark⟩ := h
    have hwords : Text.words (line (.literal name offset)) =
        [name.toList, (Hex.showNat offset).toList] := by
      have hvalue := Hex.isWord_showNat offset
      rw [line, Text.words_append_cons (by decide),
        Text.words_eq_singleton hname.nonempty hname.blankFree,
        Text.words_eq_singleton hvalue.nonempty hvalue.blankFree]
      rfl
    have hnot : bankMark.isPrefixOf (line (.literal name offset)) = false := by
      rw [← Bool.not_eq_true, List.isPrefixOf_iff_prefix]
      exact fun hat => hmark (Text.prefix_of_prefix_append_cons (by decide) hat)
    rw [ofContent, hwords, hnot]
    simp [literalOfWords, Hex.parse_showNat]
  | bankAlias quoted name =>
    obtain ⟨hname, hmark, hquoted⟩ := h
    have hat : bankMark.isPrefixOf (line (.bankAlias quoted name)) = true := by
      rw [List.isPrefixOf_iff_prefix]
      exact hmark.trans (List.prefix_append _ _)
    have hjoin := intercalate_words_quoted hquoted
    obtain ⟨w, ws, hws⟩ : ∃ w ws, Text.words ('"' :: (quoted.toList ++ ['"'])) = w :: ws := by
      refine List.exists_cons_of_ne_nil ?_
      intro hnil
      simp [hnil] at hjoin
    have hwords : Text.words (line (.bankAlias quoted name)) =
        name.toList :: "BANK".toList :: w :: ws := by
      rw [line, Text.words_append_cons (by decide),
        Text.words_eq_singleton hname.nonempty hname.blankFree,
        Text.words_append_cons (by decide), hws]
      rfl
    have hsplit : ('"' :: (quoted.toList ++ ['"'])).splitOn '"' = [[], quoted.toList, []] :=
      (Text.splitOn_eq_iff (by simp)).mpr ⟨by simp, by simp [hquoted.quoteFree]⟩
    rw [ofContent, hwords, hat, if_pos rfl, bankAliasOfWords, ← hws, hjoin, hsplit]
    simp

/-- The line of an entry has a space in it. -/
theorem space_mem_line (e : Entry) : ' ' ∈ e.line := by
  cases e <;> simp [line]

theorem isPlain_line (h : e.IsWritable) : Line.IsPlain e.line := by
  cases e with
  | literal name offset =>
    obtain ⟨hname, -⟩ := h
    have hvalue := Hex.isWord_showNat offset
    have hcomment : ¬ ['/', '/'] <:+: line (.literal name offset) :=
      Text.not_infix_append_cons (by decide) hname.commentFree hvalue.commentFree
    have hmiddle : '\n' ∉ [' '] := by decide
    exact Line.isPlain_append hname hvalue hmiddle hcomment
  | bankAlias quoted name =>
    obtain ⟨hname, -, hquoted⟩ := h
    have hmiddle : '\n' ∉ ' ' :: ("BANK".toList ++ ' ' :: '"' :: quoted.toList) := by
      have hfeed : '\n' ∉ quoted.toList := by
        intro hin
        exact absurd (hquoted.spaces _ hin (by decide)) (by decide)
      simp [hfeed]
    have hline : line (.bankAlias quoted name) = name.toList ++
        (' ' :: ("BANK".toList ++ ' ' :: '"' :: quoted.toList) ++ ['"']) := by
      simp [line]
    have hcomment : ¬ ['/', '/'] <:+: line (.bankAlias quoted name) := by
      have hquote := not_infix_quoted (by decide) hquoted.commentFree
      exact Text.not_infix_append_cons (by decide) hname.commentFree
        (Text.not_infix_append_cons (by decide) (by decide) hquote)
    rw [hline] at hcomment ⊢
    exact Line.isPlain_append hname isWord_quote hmiddle hcomment

/-- The line of an entry does not begin the pool. -/
theorem not_prefix_line (h : e.IsWritable) : ¬ Section.poolKeyword.toList <+: e.line := by
  rintro ⟨rest, hrest⟩
  cases e with
  | literal name offset =>
    -- Both sides have a space, and different letters stand behind it.
    obtain ⟨hname, -⟩ := h
    have hcut : cutAt ' ' (line (.literal name offset)) =
        some (name.toList, (Hex.showNat offset).toList) :=
      cutAt_eq_some_iff.mpr ⟨rfl, hname.not_mem (by decide)⟩
    have hcut' : cutAt ' ' (line (.literal name offset)) =
        some ("OBJECT".toList, "POOL".toList ++ rest) :=
      cutAt_eq_some_iff.mpr ⟨hrest.symm, by decide⟩
    rw [hcut, Hex.toList_showNat] at hcut'
    simp at hcut'
  | bankAlias quoted name =>
    obtain ⟨-, ⟨back, hback⟩, -⟩ := h
    rw [line, ← hback] at hrest
    simp [Section.poolKeyword] at hrest

end Entry

/-! ### All entries together -/

namespace Dictionary

/-- One line is read, and its entry is added. -/
theorem result_addLine {e : Entry} (h : e.IsWritable) (file : String) (d : Dictionary)
    (number : Int) : (addLine file d ⟨e.line, number⟩).result = .ok (d.add e) := by
  have hline : Line.isEmpty ⟨e.line, number⟩ = false := by
    have hne := List.ne_nil_of_mem e.space_mem_line
    simpa [Line.isEmpty] using hne
  rw [addLine, hline, Entry.ofContent_line h]
  exact Build.result_bind_eq_ok_iff.mpr ⟨(), d.result_report _ e, rfl⟩

/-- Lines are read one behind the other. -/
theorem result_foldlM_lines {entries : List Entry} (h : ∀ e ∈ entries, e.IsWritable)
    (file : String) (d : Dictionary) (first : Nat) :
    ((Line.numbered first (entries.map Entry.line)).foldlM (addLine file) d).result =
      .ok (entries.foldl add d) := by
  induction entries generalizing d first with
  | nil => rfl
  | cons e entries ih =>
    rw [List.map_cons, Line.numbered_cons, List.foldlM_cons, Build.result_bind,
      result_addLine (h e List.mem_cons_self)]
    exact ih (fun e' he' => h e' (List.mem_cons_of_mem e he')) (d.add e) (first + 1)

/-- The literal entries and the bank aliases are inserted in order. -/
theorem foldl_add (entries : List Entry) (d : Dictionary) :
    entries.foldl add d =
      ⟨(entries.filterMap Entry.literal?).foldl (fun m p => m.insert p.1 p.2) d.entries,
        (entries.filterMap Entry.bankAlias?).foldl (fun m p => m.insert p.1 p.2)
          d.bankAliases⟩ := by
  induction entries generalizing d with
  | nil => rfl
  | cons e entries ih =>
    rw [List.foldl_cons, ih]
    cases e <;> rfl

end Dictionary

end ModelPatch

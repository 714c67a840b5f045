import Mathlib
import ModelPatch.Manifest.Line

/-!
# Words and lines

A manifest is read by taking things away: comments, blanks at the ends of lines, all blanks in a
pool. A text survives this if there is nothing to take away. What is written into a manifest is made
of words, which hold no blank and no comment, with single spaces between them.

## Main definitions

* `Text.IsWord`: a text that can stand as one word of a line;
* `Line.IsPlain`: a text that can stand as one line;
* `Line.numbered`: texts as the lines of a manifest.

## Main results

* `Text.strip_strip`: a stripped text has nothing more to strip;
* `Text.length_splitOn`, `Text.splitOn_eq_iff`: the pieces of a text between separators;
* `Text.words_append_cons`: words split at a blank;
* `Text.prefix_iff_of_head?_words`: a stripped text begins as its first word does;
* `Text.intercalate_words`: a text in which every blank is a single space inside is the words of it
  with spaces between them;
* `Line.clean_eq_self`: a plain line stays as it is;
* `Line.numbered_prefix_ofText`: a text that is put together from plain lines has these lines.
-/

namespace ModelPatch

namespace Text

/-- A text that can stand as one word of a line. -/
structure IsWord (cs : List Char) : Prop where
  /-- It is not empty. -/
  nonempty : cs ≠ []
  /-- No blank cuts it short. -/
  blankFree : ∀ c ∈ cs, isBlank c = false
  /-- No comment starts in it. -/
  commentFree : ¬ ['/', '/'] <:+: cs

instance (cs : List Char) : Decidable (IsWord cs) :=
  decidable_of_iff (cs ≠ [] ∧ (cs.all fun c => !isBlank c) = true ∧ ¬ ['/', '/'] <:+: cs)
    ⟨fun h => ⟨h.1, by simpa using h.2.1, h.2.2⟩,
      fun h => ⟨h.nonempty, by simpa using h.blankFree, h.commentFree⟩⟩

variable {front middle back cs pattern : List Char} {c : Char}

/-! ### Pieces around a character -/

/-- A pattern that does not reach over a character is a prefix of what stands before it. -/
theorem prefix_of_prefix_append_cons (hc : c ∉ pattern) (h : pattern <+: front ++ c :: back) :
    pattern <+: front := by
  rcases List.prefix_or_prefix_of_prefix h (List.prefix_append front (c :: back)) with hin | hout
  · exact hin
  · obtain ⟨rest, rfl⟩ := hout
    rw [List.prefix_append_right_inj] at h
    cases rest with
    | nil => simp
    | cons d rest =>
      obtain ⟨rfl, -⟩ := List.cons_prefix_cons.mp h
      simp at hc

/-- A pattern that does not reach over a character occurs before it or behind it. -/
theorem not_infix_append_cons (hc : c ∉ pattern) (hfront : ¬ pattern <:+: front)
    (hback : ¬ pattern <:+: back) : ¬ pattern <:+: front ++ c :: back := by
  induction front with
  | nil =>
    rw [List.nil_append, List.infix_cons_iff]
    rintro (hat | hat)
    · have hin : pattern <+: [] := prefix_of_prefix_append_cons hc hat
      exact hfront hin.isInfix
    · exact hback hat
  | cons d front ih =>
    rw [List.infix_cons_iff, not_or] at hfront
    rw [List.cons_append, List.infix_cons_iff]
    rintro (hat | hat)
    · have hin : pattern <+: d :: front := prefix_of_prefix_append_cons hc hat
      exact hfront.1 hin
    · exact ih hfront.2 hat

theorem splitOn_cons_self (c : Char) (cs : List Char) :
    (c :: cs).splitOn c = [] :: cs.splitOn c := by
  rw [List.splitOn_cons_eq_if_modifyHead, if_pos (beq_self_eq_true c)]

theorem splitOn_cons_of_ne {sep : Char} (h : c ≠ sep) (cs : List Char) :
    (c :: cs).splitOn sep = (cs.splitOn sep).modifyHead (c :: ·) := by
  rw [List.splitOn_cons_eq_if_modifyHead, if_neg (by simpa using h)]

/-- A text has one piece more than separators. -/
theorem length_splitOn (sep : Char) (cs : List Char) :
    (cs.splitOn sep).length = cs.count sep + 1 := by
  induction cs with
  | nil => rfl
  | cons c cs ih =>
    by_cases h : c = sep
    · rw [h, splitOn_cons_self, List.length_cons, ih, List.count_cons_self]
    · rw [splitOn_cons_of_ne h, List.length_modifyHead, ih, List.count_cons_of_ne h]

/-- No piece holds a separator. -/
theorem not_mem_of_mem_splitOn {sep : Char} {piece : List Char} (h : piece ∈ cs.splitOn sep) :
    sep ∉ piece := by
  induction cs generalizing piece with
  | nil => simp at h; simp [h]
  | cons c cs ih =>
    by_cases hc : c = sep
    · rw [hc, splitOn_cons_self, List.mem_cons] at h
      rcases h with rfl | h
      · exact List.not_mem_nil
      · exact ih h
    · rw [splitOn_cons_of_ne hc] at h
      obtain ⟨first, rest, hsplit⟩ := List.exists_cons_of_ne_nil (List.splitOn_ne_nil sep cs)
      rw [hsplit] at ih h
      rw [List.modifyHead_cons, List.mem_cons] at h
      rcases h with rfl | h
      · simp [Ne.symm hc, ih List.mem_cons_self]
      · exact ih (List.mem_cons_of_mem _ h)

/-- The pieces of a text make up what is left of it without the separators. -/
theorem flatten_splitOn (sep : Char) (cs : List Char) :
    (cs.splitOn sep).flatten = cs.filter (· ≠ sep) := by
  induction cs with
  | nil => rfl
  | cons c cs ih =>
    by_cases h : c = sep
    · rw [h, splitOn_cons_self, List.flatten_cons, ih, List.filter_cons_of_neg (by simp)]
      rfl
    · rw [splitOn_cons_of_ne h, List.filter_cons_of_pos (by simpa using h), ← ih]
      obtain ⟨first, rest, hsplit⟩ := List.exists_cons_of_ne_nil (List.splitOn_ne_nil sep cs)
      rw [hsplit]
      rfl

/-- Pieces are those of a text if they hold no separator and make up the text. -/
theorem splitOn_eq_iff {sep : Char} {pieces : List (List Char)} (hne : pieces ≠ []) :
    cs.splitOn sep = pieces ↔ cs = [sep].intercalate pieces ∧ ∀ piece ∈ pieces, sep ∉ piece := by
  constructor
  · rintro rfl
    exact ⟨(List.intercalate_splitOn sep).symm, fun piece => not_mem_of_mem_splitOn⟩
  · rintro ⟨rfl, hpieces⟩
    exact List.splitOn_intercalate sep hpieces hne

/-- One character that is no blank is a word. -/
theorem isWord_singleton (h : isBlank c = false) : IsWord [c] where
  nonempty := by simp
  blankFree := by simpa using h
  commentFree := fun hin => absurd hin.length_le (by simp)

theorem IsWord.not_mem (h : IsWord cs) (hc : isBlank c = true) : c ∉ cs := by
  intro hmem
  simp [h.blankFree c hmem] at hc

/-! ### Nothing to take away -/

theorem trimEnd_concat {p : Char → Bool} (hc : p c = false) (cs : List Char) :
    trimEnd p (cs ++ [c]) = cs ++ [c] := by
  induction cs with
  | nil => simp [trimEnd, hc]
  | cons d ds ih =>
    rw [List.cons_append, trimEnd, ih]
    cases ds <;> rfl

theorem trim_eq_self {p : Char → Bool} (hhead : ∀ c ∈ cs.head?, p c = false)
    (hlast : ∀ c ∈ cs.getLast?, p c = false) : trim p cs = cs := by
  have hdrop : cs.dropWhile p = cs := by
    cases cs with
    | nil => rfl
    | cons c rest => simp [hhead c rfl]
  rw [trim, hdrop]
  rcases List.eq_nil_or_concat' cs with rfl | ⟨front, c, rfl⟩
  · rfl
  · exact trimEnd_concat (hlast c (by simp)) front

theorem strip_eq_self (hhead : ∀ c ∈ cs.head?, isBlank c = false)
    (hlast : ∀ c ∈ cs.getLast?, isBlank c = false) : strip cs = cs :=
  trim_eq_self hhead hlast

/-! ### What is left of a text -/

theorem trimEnd_isPrefix (p : Char → Bool) (cs : List Char) : trimEnd p cs <+: cs := by
  induction cs with
  | nil => exact List.prefix_rfl
  | cons c cs ih =>
    cases hrest : trimEnd p cs with
    | nil => by_cases hc : p c <;> simp [trimEnd, hrest, hc]
    | cons d ds =>
      rw [hrest] at ih
      simpa [trimEnd, hrest] using ih

theorem getLast?_trimEnd (p : Char → Bool) (cs : List Char) :
    ∀ c ∈ (trimEnd p cs).getLast?, p c = false := by
  induction cs with
  | nil => simp [trimEnd]
  | cons c cs ih =>
    cases hrest : trimEnd p cs with
    | nil => by_cases hc : p c <;> simp [trimEnd, hrest, hc]
    | cons d ds =>
      rw [hrest] at ih
      simpa [trimEnd, hrest] using ih

theorem exists_trimEnd (p : Char → Bool) (cs : List Char) :
    ∃ back, cs = trimEnd p cs ++ back ∧ ∀ c ∈ back, p c = true := by
  induction cs with
  | nil => exact ⟨[], rfl, by simp⟩
  | cons c cs ih =>
    obtain ⟨back, hsplit, hback⟩ := ih
    cases hrest : trimEnd p cs with
    | nil =>
      rw [hrest, List.nil_append] at hsplit
      by_cases hc : p c
      · exact ⟨c :: cs, by simp [trimEnd, hrest, hc], by simpa [hc, hsplit] using hback⟩
      · refine ⟨back, ?_, hback⟩
        simp [trimEnd, hrest, hc, ← hsplit]
    | cons d ds =>
      refine ⟨back, ?_, hback⟩
      rw [hrest] at hsplit
      rw [trimEnd, hrest, hsplit]
      rfl

/-- Only the ends of a text are trimmed. -/
theorem exists_trim (p : Char → Bool) (cs : List Char) :
    ∃ front back, cs = front ++ (trim p cs ++ back) ∧ ∀ c ∈ front ++ back, p c = true := by
  obtain ⟨back, hsplit, hback⟩ := exists_trimEnd p (cs.dropWhile p)
  refine ⟨cs.takeWhile p, back, ?_, ?_⟩
  · rw [trim, ← hsplit, List.takeWhile_append_dropWhile]
  · intro c hc
    rcases List.mem_append.mp hc with hfront | hend
    · exact List.mem_takeWhile_imp hfront
    · exact hback c hend

/-- A stripped text begins with no blank. -/
theorem head?_strip (cs : List Char) : ∀ c ∈ (strip cs).head?, isBlank c = false := by
  intro c hc
  have hdrop : c ∈ (cs.dropWhile isBlank).head? := by
    obtain ⟨rest, hrest⟩ := List.head?_eq_some_iff.mp hc
    obtain ⟨behind, hbehind⟩ := trimEnd_isPrefix isBlank (cs.dropWhile isBlank)
    rw [← hbehind]
    exact List.head?_eq_some_iff.mpr ⟨rest ++ behind, by rw [← List.cons_append, ← hrest]; rfl⟩
  have hhead := List.head?_dropWhile_not isBlank cs
  rw [Option.mem_def.mp hdrop] at hhead
  simpa using hhead

/-- There is nothing more to strip. -/
theorem strip_strip (cs : List Char) : strip (strip cs) = strip cs :=
  strip_eq_self (head?_strip cs) (getLast?_trimEnd isBlank _)

theorem IsWord.strip (h : IsWord cs) : strip cs = cs :=
  strip_eq_self (fun c hc => h.blankFree c (List.mem_of_mem_head? hc))
    (fun c hc => h.blankFree c (List.mem_of_mem_getLast? hc))

/-- A text with words at both ends has no blanks there. -/
theorem strip_append (hfront : IsWord front) (hback : IsWord back) :
    strip (front ++ (middle ++ back)) = front ++ (middle ++ back) := by
  refine strip_eq_self ?_ ?_
  · intro c hc
    rw [List.head?_append_of_ne_nil front hfront.nonempty] at hc
    exact hfront.blankFree c (List.mem_of_mem_head? hc)
  · intro c hc
    rw [← List.append_assoc, List.getLast?_append_of_ne_nil _ hback.nonempty] at hc
    exact hback.blankFree c (List.mem_of_mem_getLast? hc)

theorem dropBlanks_eq_self (h : ∀ c ∈ cs, isBlank c = false) : dropBlanks cs = cs :=
  List.filter_eq_self.mpr fun c hc => by simp [h c hc]

/-- A word loses nothing, and neither does a mark behind it. -/
theorem dropBlanks_concat (h : IsWord cs) (hc : isBlank c = false) :
    dropBlanks (cs ++ [c]) = cs ++ [c] := by
  refine dropBlanks_eq_self ?_
  intro d hd
  rcases List.mem_append.mp hd with hd | hd
  · exact h.blankFree d hd
  · rw [List.mem_singleton.mp hd, hc]

/-! ### Words -/

/-- Words split at a blank. -/
theorem words_append_cons (hc : isBlank c = true) (front back : List Char) :
    words (front ++ c :: back) = words front ++ words back := by
  rw [words, List.splitOnP_append_cons front back hc, List.filter_append]
  rfl

/-- A text without blanks is one word. -/
theorem words_eq_singleton (hne : cs ≠ []) (h : ∀ c ∈ cs, isBlank c = false) :
    words cs = [cs] := by
  rw [words, List.splitOnP_eq_singleton h]
  simp [hne]

/-- A text that begins with no blank begins as its first word does. -/
theorem prefix_iff_of_head?_words {w : List Char} (hhead : ∀ c ∈ cs.head?, isBlank c = false)
    (hpattern : ∀ c ∈ pattern, isBlank c = false) (h : (words cs).head? = some w) :
    pattern <+: cs ↔ pattern <+: w := by
  -- The text up to its first blank is its first word.
  have hcut := List.takeWhile_append_dropWhile (p := fun c => !isBlank c) (l := cs)
  have hfront : ∀ c ∈ cs.takeWhile fun c => !isBlank c, isBlank c = false := by
    intro c hc
    simpa using List.mem_takeWhile_imp hc
  have hne : cs.takeWhile (fun c => !isBlank c) ≠ [] := by
    cases cs with
    | nil => simp [words] at h
    | cons c cs => simp [hhead c rfl]
  have hword := words_eq_singleton hne hfront
  cases hback : cs.dropWhile fun c => !isBlank c with
  | nil =>
    rw [hback, List.append_nil] at hcut
    rw [hcut] at hword
    rw [hword, List.head?_singleton, Option.some.injEq] at h
    rw [h]
  | cons c back =>
    have hc : isBlank c = true := by
      have hhead := List.head?_dropWhile_not (fun c => !isBlank c) cs
      rw [hback] at hhead
      simpa using hhead
    have hsep : c ∉ pattern := by
      intro hmem
      simp [hpattern c hmem] at hc
    rw [hback] at hcut
    rw [← hcut, words_append_cons hc, hword, List.singleton_append, List.head?_cons,
      Option.some.injEq] at h
    rw [← hcut, h]
    exact ⟨prefix_of_prefix_append_cons hsep, fun hin => hin.trans (List.prefix_append _ _)⟩

theorem blankFree_of_space_not_mem (hblank : ∀ c ∈ cs, isBlank c = true → c = ' ')
    (hspace : ' ' ∉ cs) : ∀ c ∈ cs, isBlank c = false := by
  intro c hc
  rw [← Bool.not_eq_true]
  intro hbad
  exact hspace (hblank c hc hbad ▸ hc)

/-- A text in which every blank is a single space inside is the words of it with spaces between
them. -/
theorem intercalate_words (hblank : ∀ c ∈ cs, isBlank c = true → c = ' ')
    (hsingle : ¬ [' ', ' '] <:+: cs) (hhead : cs.head? ≠ some ' ')
    (hlast : cs.getLast? ≠ some ' ') : [' '].intercalate (words cs) = cs := by
  -- The induction takes off the first word; what stands behind the space is shorter.
  induction hn : cs.length using Nat.strong_induction_on generalizing cs with
  | _ n ih =>
    by_cases hspace : ' ' ∈ cs
    · obtain ⟨front, back, rfl, hfront⟩ := List.eq_append_cons_of_mem hspace
      have hfrontBlank : ∀ c ∈ front, isBlank c = true → c = ' ' :=
        fun c hc => hblank c (List.mem_append_left _ hc)
      have hbackBlank : ∀ c ∈ back, isBlank c = true → c = ' ' :=
        fun c hc => hblank c (List.mem_append_right _ (List.mem_cons_of_mem _ hc))
      have hword : words front = [front] := by
        refine words_eq_singleton ?_ (blankFree_of_space_not_mem hfrontBlank hfront)
        rintro rfl
        simp at hhead
      have hshorter : back.length < n := by
        rw [← hn, List.length_append, List.length_cons]
        omega
      have hback : [' '].intercalate (words back) = back := by
        refine ih back.length hshorter hbackBlank ?_ ?_ ?_ rfl
        · intro h
          exact hsingle (h.trans ⟨front ++ [' '], [], by simp⟩)
        · intro h
          obtain ⟨back, rfl⟩ := List.head?_eq_some_iff.mp h
          exact hsingle ⟨front, back, by simp⟩
        · intro h
          rw [List.getLast?_append, List.getLast?_cons, h] at hlast
          exact hlast rfl
      have hne : words back ≠ [] := by
        intro h
        rw [h] at hback
        rw [← hback] at hlast
        simp at hlast
      rw [words_append_cons (by decide), hword, List.singleton_append,
        List.intercalate_cons_of_ne_nil hne, hback]
      simp
    · cases cs with
      | nil => rfl
      | cons c cs =>
        rw [words_eq_singleton (by simp) (blankFree_of_space_not_mem hblank hspace)]
        simp

end Text

/-! ### Lines -/

namespace Line

/-- A text that can stand as one line. -/
structure IsPlain (cs : List Char) : Prop where
  /-- No line feed cuts it short. -/
  lineFeedFree : '\n' ∉ cs
  /-- No comment starts in it. -/
  commentFree : ¬ ['/', '/'] <:+: cs
  /-- It has no blanks at its ends. -/
  stripped : Text.strip cs = cs

/-- A line with words at both ends is plain if its middle ends no line and it holds no comment. -/
theorem isPlain_append {front middle back : List Char} (hfront : Text.IsWord front)
    (hback : Text.IsWord back) (hmiddle : '\n' ∉ middle)
    (hcomment : ¬ ['/', '/'] <:+: front ++ (middle ++ back)) :
    IsPlain (front ++ (middle ++ back)) where
  lineFeedFree := by
    have hblank : isBlank '\n' = true := by decide
    simp [hfront.not_mem hblank, hback.not_mem hblank, hmiddle]
  commentFree := hcomment
  stripped := Text.strip_append hfront hback

/-- A word with a mark behind it is a plain line. -/
theorem isPlain_concat {cs : List Char} {c : Char} (h : Text.IsWord cs) (hblank : isBlank c = false)
    (hslash : c ≠ '/') : IsPlain (cs ++ [c]) := by
  have hnil : '\n' ∉ ([] : List Char) := by simp
  have hsep : c ∉ ['/', '/'] := by simp [hslash]
  exact isPlain_append h (Text.isWord_singleton hblank) hnil
    (Text.not_infix_append_cons hsep h.commentFree (by simp))

theorem beforeComment_eq_self {cs : List Char} (h : ¬ ['/', '/'] <:+: cs) :
    beforeComment cs = cs := by
  fun_induction beforeComment cs with
  | case1 cs => exact absurd ⟨[], cs, rfl⟩ h
  | case2 c cs _ ih => rw [ih fun hin => h (hin.trans (List.suffix_cons c cs).isInfix)]
  | case3 => rfl

/-- A plain line stays as it is. -/
theorem clean_eq_self {cs : List Char} (h : IsPlain cs) : clean cs = cs := by
  rw [clean, beforeComment_eq_self h.commentFree, h.stripped]

/-- The lines of a text are stripped. -/
theorem strip_content_of_mem_ofText {text : List Char} {l : Line} (h : l ∈ ofText text) :
    Text.strip l.content = l.content := by
  obtain ⟨p, -, rfl⟩ := List.mem_map.mp h
  exact Text.strip_strip _

/-- Texts as the lines of a manifest, from a number on. -/
def numbered (first : Nat) (texts : List (List Char)) : List Line :=
  (texts.zipIdx first).map fun p => ⟨p.1, p.2⟩

@[simp] theorem numbered_nil (first : Nat) : numbered first [] = [] := rfl

@[simp] theorem numbered_cons (first : Nat) (cs : List Char) (texts : List (List Char)) :
    numbered first (cs :: texts) = ⟨cs, first⟩ :: numbered (first + 1) texts := rfl

@[simp] theorem numbered_append (first : Nat) (texts others : List (List Char)) :
    numbered first (texts ++ others) =
      numbered first texts ++ numbered (first + texts.length) others := by
  simp [numbered, List.zipIdx_append]

@[simp] theorem length_numbered (first : Nat) (texts : List (List Char)) :
    (numbered first texts).length = texts.length := by
  rw [numbered, List.length_map, List.length_zipIdx]

theorem map_content_numbered (first : Nat) (texts : List (List Char)) :
    (numbered first texts).map content = texts := by
  rw [numbered, List.map_map]
  exact List.zipIdx_map_fst first texts

theorem map_number_numbered (first : Nat) (texts : List (List Char)) :
    (numbered first texts).map number =
      (List.range' first texts.length).map fun n : Nat => (n : Int) := by
  rw [numbered, List.map_map, ← List.zipIdx_map_snd first texts, List.map_map]
  rfl

theorem content_mem_of_mem_numbered {first : Nat} {texts : List (List Char)} {l : Line}
    (h : l ∈ numbered first texts) : l.content ∈ texts := by
  obtain ⟨p, hp, rfl⟩ := List.mem_map.mp h
  exact List.fst_mem_of_mem_zipIdx hp

theorem splitOn_intercalate_eq_flatMap {texts : List (List Char)} (h : texts ≠ []) (c : Char) :
    ([c].intercalate texts).splitOn c = texts.flatMap (List.splitOn c) := by
  induction texts with
  | nil => exact absurd rfl h
  | cons cs texts ih =>
    cases texts with
    | nil => simp
    | cons ds texts =>
      rw [List.intercalate_cons_cons, List.append_assoc, List.singleton_append, List.splitOn,
        List.splitOnP_append_cons _ _ (by simp), List.flatMap_cons, ← ih (by simp)]
      rfl

/-- The lines of a text that begins with plain lines begin with these. -/
theorem numbered_prefix_ofText {texts : List (List Char)} (hplain : ∀ cs ∈ texts, IsPlain cs)
    (hne : texts ≠ []) (behind : List (List Char)) :
    numbered 1 texts <+: ofText (['\n'].intercalate (texts ++ behind)) := by
  have htexts : texts.flatMap (List.splitOn '\n') = texts := by
    have hone : ∀ cs ∈ texts, List.splitOn '\n' cs = [cs] := fun cs hcs =>
      List.splitOn_eq_singleton (hplain cs hcs).lineFeedFree
    rw [List.flatMap_congr hone, List.flatMap_singleton']
  have hclean : numbered 1 texts = (texts.zipIdx 1).map fun p => ⟨clean p.1, p.2⟩ := by
    refine List.map_congr_left fun p hp => ?_
    rw [clean_eq_self (hplain p.1 (List.fst_mem_of_mem_zipIdx hp))]
  rw [ofText, splitOn_intercalate_eq_flatMap (by simp [hne]), List.flatMap_append, htexts,
    List.zipIdx_append, List.map_append, hclean]
  exact List.prefix_append _ _

end Line

end ModelPatch

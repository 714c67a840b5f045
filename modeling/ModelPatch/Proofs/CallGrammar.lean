import Mathlib
import ModelPatch.Proofs.CallSize
import ModelPatch.Proofs.LineLayout

/-!
# Which texts are calls

A call is a name with arguments in parentheses. The parentheses are searched one by one, and counted
besides, so that there is one pair of them, and nothing but blanks behind it. What stands in front
of the pair is the name, and what stands inside is cut at its commas. Blanks at the ends of all
parts are dropped.

Nothing is lost by this but the blanks. A call that was read can be laid out with any blanks around
its parts, and is read again from each of these texts and from no other one. There is one exception:
between parentheses, nothing but blanks stands for no arguments, and not for one that is empty. So a
single argument is never empty, although each of several may be.

## Main definitions

* `Text.Pads`: a text with blanks around it;
* `Call.IsCallText`: one pair of parentheses with nothing but blanks behind it;
* `Call.IsPlain`: a call whose parts can be told apart in a text;
* `Call.LaidOut`: the texts of a call.

## Main results

* `Text.map_strip_splitOn`: blanks at the ends of a text do not change its pieces;
* `Call.argumentsOf_eq_iff`: which texts between parentheses have which arguments;
* `Call.result_parse_eq_ok_iff`: a call is read from the texts of it, and from no other ones;
* `Call.laidOut_text`: a call as it is shown is one of them;
* `Call.call_grammar`: which texts are calls, and of what.
-/

namespace ModelPatch

namespace Text

variable {cs core front back : List Char} {sep : Char}

/-! ### Blanks at the ends -/

/-- A text with blanks around it. -/
def Pads (core text : List Char) : Prop :=
  ∃ front back, text = front ++ (core ++ back) ∧ ∀ c ∈ front ++ back, isBlank c = true

theorem pads_strip (cs : List Char) : Pads (strip cs) cs :=
  exists_trim isBlank cs

theorem pads_self (cs : List Char) : Pads cs cs :=
  ⟨[], [], by simp, by simp⟩

theorem Pads.strip_eq {text : List Char} (h : Pads core text) : strip text = strip core := by
  obtain ⟨front, back, rfl, hblank⟩ := h
  rw [strip_blanks_append fun c hc => hblank c (List.mem_append_left back hc),
    strip_append_blanks fun c hc => hblank c (List.mem_append_right front hc)]

theorem map_strip_of_pads {texts pieces : List (List Char)} (h : List.Forall₂ Pads texts pieces)
    (hstripped : ∀ text ∈ texts, strip text = text) : pieces.map strip = texts := by
  induction h with
  | nil => rfl
  | cons hpad _ ih =>
    rw [List.forall_mem_cons] at hstripped
    rw [List.map_cons, hpad.strip_eq, hstripped.1, ih hstripped.2]

theorem Pads.not_mem {text : List Char} {c : Char} (h : Pads core text) (hblank : isBlank c = false)
    (hc : c ∉ core) : c ∉ text := by
  obtain ⟨front, back, rfl, hends⟩ := h
  have hout : c ∉ front ++ back := fun hmem => by simp [hends c hmem] at hblank
  simp only [List.mem_append, not_or] at hout ⊢
  exact ⟨hout.1, hc, hout.2⟩

theorem strip_dropWhile (cs : List Char) : strip (cs.dropWhile isBlank) = strip cs := by
  have hblank : ∀ c ∈ cs.takeWhile isBlank, isBlank c = true := fun c => List.mem_takeWhile_imp
  rw [← strip_blanks_append hblank, List.takeWhile_append_dropWhile]

theorem strip_eq_nil_iff : strip cs = [] ↔ ∀ c ∈ cs, isBlank c = true := by
  constructor
  · intro h
    obtain ⟨front, back, hsplit, hblank⟩ := pads_strip cs
    rw [h, List.nil_append] at hsplit
    rwa [hsplit]
  · intro h
    have hnil := strip_blanks_append h []
    rwa [List.append_nil] at hnil

/-! ### Pieces of a text -/

theorem intercalate_append_cons (sep front first : List Char) (rest : List (List Char)) :
    sep.intercalate ((front ++ first) :: rest) = front ++ sep.intercalate (first :: rest) := by
  cases rest with
  | nil => simp
  | cons piece rest => simp [List.intercalate_cons_cons]

theorem intercalate_concat_append (sep : List Char) (pieces : List (List Char))
    (last back : List Char) :
    sep.intercalate (pieces ++ [last ++ back]) = sep.intercalate (pieces ++ [last]) ++ back := by
  induction pieces with
  | nil => simp
  | cons piece pieces ih =>
    rw [List.cons_append, List.cons_append, List.intercalate_cons_of_ne_nil (by simp),
      List.intercalate_cons_of_ne_nil (by simp), ih]
    simp

theorem not_mem_intercalate {pieces : List (List Char)} {sep : List Char} {c : Char} (hc : c ∉ sep)
    (h : ∀ piece ∈ pieces, c ∉ piece) : c ∉ sep.intercalate pieces := by
  induction pieces with
  | nil => simp
  | cons piece pieces ih =>
    rw [List.forall_mem_cons] at h
    cases pieces with
    | nil => simpa using h.1
    | cons next pieces =>
      simp [List.intercalate_cons_cons, hc, h.1, ih h.2]

/-- What has no separator and stands in front of a text belongs to its first piece. -/
theorem exists_splitOn_append_left (h : sep ∉ front) (cs : List Char) :
    ∃ first pieces, cs.splitOn sep = first :: pieces ∧
      (front ++ cs).splitOn sep = (front ++ first) :: pieces := by
  obtain ⟨first, pieces, hsplit⟩ := List.exists_cons_of_ne_nil (List.splitOn_ne_nil sep cs)
  obtain ⟨hcs, hfree⟩ := (splitOn_eq_iff (by simp)).mp hsplit
  refine ⟨first, pieces, hsplit, (splitOn_eq_iff (by simp)).mpr ⟨?_, ?_⟩⟩
  · rw [intercalate_append_cons, ← hcs]
  · rw [List.forall_mem_cons] at hfree ⊢
    exact ⟨by simp [h, hfree.1], hfree.2⟩

/-- What has no separator and stands behind a text belongs to its last piece. -/
theorem exists_splitOn_append_right (h : sep ∉ back) (cs : List Char) :
    ∃ pieces last, cs.splitOn sep = pieces ++ [last] ∧
      (cs ++ back).splitOn sep = pieces ++ [last ++ back] := by
  rcases List.eq_nil_or_concat' (cs.splitOn sep) with hnil | ⟨pieces, last, hsplit⟩
  · exact absurd hnil (List.splitOn_ne_nil sep cs)
  obtain ⟨hcs, hfree⟩ := (splitOn_eq_iff (by simp)).mp hsplit
  refine ⟨pieces, last, hsplit, (splitOn_eq_iff (by simp)).mpr ⟨?_, ?_⟩⟩
  · rw [intercalate_concat_append, ← hcs]
  · rw [List.forall_mem_append, List.forall_mem_singleton] at hfree ⊢
    exact ⟨hfree.1, by simp [h, hfree.2]⟩

/-- **Blanks at the ends of a text do not change its pieces**, as far as these are stripped. -/
theorem map_strip_splitOn (hsep : isBlank sep = false) (cs : List Char) :
    ((strip cs).splitOn sep).map strip = (cs.splitOn sep).map strip := by
  -- The blanks hold no separator, so they belong to the first piece and to the last one.
  obtain ⟨front, back, hcs, hblank⟩ := pads_strip cs
  have hout : sep ∉ front ++ back := fun hmem => by simp [hblank sep hmem] at hsep
  rw [List.mem_append, not_or] at hout
  rw [List.forall_mem_append] at hblank
  have hleft : (cs.splitOn sep).map strip = ((strip cs ++ back).splitOn sep).map strip := by
    obtain ⟨first, pieces, hinner, hwhole⟩ := exists_splitOn_append_left hout.1 (strip cs ++ back)
    rw [← hcs] at hwhole
    rw [hwhole, hinner, List.map_cons, List.map_cons, strip_blanks_append hblank.1]
  have hright :
      ((strip cs ++ back).splitOn sep).map strip = ((strip cs).splitOn sep).map strip := by
    obtain ⟨pieces, last, hinner, hwhole⟩ := exists_splitOn_append_right hout.2 (strip cs)
    rw [hwhole, hinner, List.map_append, List.map_append, List.map_singleton, List.map_singleton,
      strip_append_blanks hblank.2]
  rw [hleft, hright]

end Text

namespace Call

variable {c : Call} {text function inner tail : List Char} {arguments : List (List Char)}

/-! ### Parts of a call -/

/-- A text with one pair of parentheses, behind which there are only blanks. -/
def IsCallText (text : List Char) : Prop :=
  text.count '(' = 1 ∧ text.count ')' = 1 ∧
    ∃ front inner back, text = front ++ '(' :: (inner ++ ')' :: back) ∧
      ∀ c ∈ back, isBlank c = true

/-- No parenthesis stands in the text. -/
def Unparenthesized (text : List Char) : Prop :=
  '(' ∉ text ∧ ')' ∉ text

/-- The parts of a text with one pair of parentheses, behind which there are only blanks. -/
structure Cuts (text function inner tail : List Char) : Prop where
  /-- The parts make up the text. -/
  text_eq : text = function ++ '(' :: (inner ++ ')' :: tail)
  /-- The first parenthesis is behind the name, -/
  function : Unparenthesized function
  /-- the second one is behind the arguments, -/
  inner : Unparenthesized inner
  /-- and nothing but blanks is behind that. -/
  tail : ∀ c ∈ tail, isBlank c = true

theorem Unparenthesized.mono {part : List Char} (h : Unparenthesized text) (hpart : part ⊆ text) :
    Unparenthesized part :=
  ⟨fun hmem => h.1 (hpart hmem), fun hmem => h.2 (hpart hmem)⟩

theorem unparenthesized_of_blank (h : ∀ c ∈ text, isBlank c = true) : Unparenthesized text :=
  ⟨fun hmem => absurd (h '(' hmem) (by decide), fun hmem => absurd (h ')' hmem) (by decide)⟩

theorem unparenthesized_of_pads {core : List Char} (hpads : Text.Pads core text)
    (h : Unparenthesized core) : Unparenthesized text :=
  ⟨hpads.not_mem (by decide) h.1, hpads.not_mem (by decide) h.2⟩

theorem isCallText_iff :
    IsCallText text ↔ ∃ function inner tail, Cuts text function inner tail := by
  have hcounts : ∀ front inner back : List Char, Unparenthesized back →
      ((front ++ '(' :: (inner ++ ')' :: back)).count '(' = 1 ∧
          (front ++ '(' :: (inner ++ ')' :: back)).count ')' = 1 ↔
        Unparenthesized front ∧ Unparenthesized inner) := by
    rintro front inner back ⟨hleft, hright⟩
    simp only [Unparenthesized, ← List.count_eq_zero] at hleft hright ⊢
    simp [hleft, hright]
    omega
  constructor
  · rintro ⟨hleft, hright, front, inner, back, rfl, hback⟩
    have hfree := (hcounts front inner back (unparenthesized_of_blank hback)).mp ⟨hleft, hright⟩
    exact ⟨front, inner, back, rfl, hfree.1, hfree.2, hback⟩
  · rintro ⟨function, inner, tail, rfl, hfunction, hinner, htail⟩
    obtain ⟨hleft, hright⟩ := (hcounts function inner tail (unparenthesized_of_blank htail)).mpr
      ⟨hfunction, hinner⟩
    exact ⟨hleft, hright, function, inner, tail, rfl, htail⟩

theorem ofText?_eq_some_iff :
    ofText? text = some c ↔ ∃ function inner tail, Cuts text function inner tail ∧
      c = ⟨String.ofList (Text.strip function), argumentsOf inner⟩ := by
  simp only [ofText?, Option.bind_eq_bind, Option.bind_eq_some_iff, Prod.exists, cutAt_eq_some_iff,
    Option.ite_none_left_eq_some]
  constructor
  · rintro ⟨function, rest, ⟨rfl, hleft⟩, inner, tail, ⟨rfl, hright⟩, hfree, hcall⟩
    simp only [List.mem_append, not_or, Bool.not_eq_true, Bool.not_eq_false', List.isEmpty_iff,
      Text.strip_eq_nil_iff] at hfree
    obtain ⟨hfunction, ⟨hinner, -⟩, htail⟩ := hfree
    exact ⟨function, inner, tail, ⟨rfl, ⟨hleft, hfunction⟩, ⟨hinner, hright⟩, htail⟩,
      (Option.some.inj hcall).symm⟩
  · rintro ⟨function, inner, tail, ⟨rfl, hfunction, hinner, htail⟩, rfl⟩
    refine ⟨function, _, ⟨rfl, hfunction.1⟩, inner, tail, ⟨rfl, hinner.2⟩, ?_, rfl⟩
    have hfree : '(' ∉ tail := (unparenthesized_of_blank htail).1
    simp [hfunction.2, hinner.1, hfree, Text.strip_eq_nil_iff.mpr htail]

/-- Stripping takes away the blanks in front of the name and behind the parentheses. -/
theorem Cuts.strip (h : Cuts text function inner tail) :
    Text.strip text = function.dropWhile isBlank ++ '(' :: (inner ++ [')']) := by
  have htext : text = function.takeWhile isBlank ++
      ((function.dropWhile isBlank ++ '(' :: (inner ++ [')'])) ++ tail) := by
    have hfunction : function.takeWhile isBlank ++ function.dropWhile isBlank = function :=
      List.takeWhile_append_dropWhile
    rw [h.text_eq, ← List.append_assoc, ← List.append_assoc, hfunction]
    simp
  rw [htext, Text.strip_blanks_append fun c hc => List.mem_takeWhile_imp hc,
    Text.strip_append_blanks h.tail]
  refine Text.strip_eq_self ?_ ?_
  · have hhead := List.head?_dropWhile_not isBlank function
    cases hfunction : function.dropWhile isBlank with
    | nil =>
      rintro c ⟨⟩
      decide
    | cons d rest =>
      rintro c ⟨⟩
      simpa [hfunction] using hhead
  · intro c hc
    rw [← List.cons_append, ← List.append_assoc, List.getLast?_concat] at hc
    obtain rfl := Option.some.inj hc
    decide

/-- The blanks at the ends of a text do not matter. -/
theorem result_parse_eq_ok_iff_cuts :
    (parse text).result = .ok c ↔ ∃ function inner tail, Cuts text function inner tail ∧
      c = ⟨String.ofList (Text.strip function), argumentsOf inner⟩ := by
  rw [parse_eq_ok_iff, ofText?_eq_some_iff]
  constructor
  · -- The blanks in front go to the name, and those behind go to the others behind the call.
    rintro ⟨function, inner, tail, h, rfl⟩
    obtain ⟨front, back, htext, hblank⟩ := Text.pads_strip text
    rw [List.forall_mem_append] at hblank
    have hfront : Unparenthesized front := unparenthesized_of_blank hblank.1
    refine ⟨front ++ function, inner, tail ++ back, ⟨?_, ?_, h.inner, ?_⟩, ?_⟩
    · refine htext.trans ?_
      rw [h.text_eq]
      simp
    · exact ⟨by simp [hfront.1, h.function.1], by simp [hfront.2, h.function.2]⟩
    · exact List.forall_mem_append.mpr ⟨h.tail, hblank.2⟩
    · rw [Text.strip_blanks_append hblank.1]
  · rintro ⟨function, inner, tail, h, rfl⟩
    have hfunction : Unparenthesized (function.dropWhile isBlank) :=
      h.function.mono (List.dropWhile_suffix isBlank).subset
    refine ⟨function.dropWhile isBlank, inner, [], ⟨h.strip, hfunction, h.inner, by simp⟩, ?_⟩
    rw [Text.strip_dropWhile]

/-! ### Arguments -/

/-- The texts that may stand between the parentheses for some arguments. -/
inductive Lists : List (List Char) → List Char → Prop
  /-- Nothing but blanks stands for no arguments. -/
  | blank {inner : List Char} (hinner : ∀ c ∈ inner, isBlank c = true) : Lists [] inner
  /-- Arguments stand between commas, with blanks around them. -/
  | pieces {arguments pieces : List (List Char)} (hne : arguments ≠ [])
      (hpads : List.Forall₂ Text.Pads arguments pieces) :
      Lists arguments ([','].intercalate pieces)

theorem argumentsOf_of_blank (h : ∀ c ∈ inner, isBlank c = true) : argumentsOf inner = [] := by
  simp [argumentsOf, Text.strip_eq_nil_iff.mpr h]

theorem argumentsOf_of_not_blank (h : ¬ ∀ c ∈ inner, isBlank c = true) :
    argumentsOf inner = (inner.splitOn ',').map Text.strip := by
  have hne : Text.strip inner ≠ [] := fun hnil => h (Text.strip_eq_nil_iff.mp hnil)
  rw [← Text.map_strip_splitOn (by decide)]
  simp [argumentsOf, hne]

/-- **Which texts have which arguments.** -/
theorem argumentsOf_eq_iff (hplain : ∀ a ∈ arguments, Text.strip a = a ∧ ',' ∉ a)
    (hempty : arguments ≠ [[]]) : argumentsOf inner = arguments ↔ Lists arguments inner := by
  constructor
  · rintro rfl
    by_cases hblank : ∀ c ∈ inner, isBlank c = true
    · rw [argumentsOf_of_blank hblank]
      exact .blank hblank
    · rw [argumentsOf_of_not_blank hblank]
      have hpads :
          List.Forall₂ Text.Pads ((inner.splitOn ',').map Text.strip) (inner.splitOn ',') :=
        List.forall₂_map_left_iff.mpr (List.forall₂_same.mpr fun piece _ => Text.pads_strip piece)
      have hlists := Lists.pieces (by simp [List.splitOn_ne_nil]) hpads
      rwa [List.intercalate_splitOn] at hlists
  · intro h
    cases h with
    | blank hblank => exact argumentsOf_of_blank hblank
    | @pieces _ pieces hne hpads =>
      have hstrip : pieces.map Text.strip = arguments :=
        Text.map_strip_of_pads hpads fun a ha => (hplain a ha).1
      have hfree : ∀ piece ∈ pieces, ',' ∉ piece := fun piece hpiece =>
        (Text.pads_strip piece).not_mem (by decide)
          (hplain _ (hstrip ▸ List.mem_map_of_mem hpiece)).2
      have hsplit : ([','].intercalate pieces).splitOn ',' = pieces := by
        refine List.splitOn_intercalate ',' hfree ?_
        rintro rfl
        exact hne hstrip.symm
      have hblank : ¬ ∀ c ∈ [','].intercalate pieces, isBlank c = true := by
        -- Without a comma there is one argument, and if it is blank, then it is empty.
        intro hblank
        have hcomma : ',' ∉ [','].intercalate pieces := fun hmem =>
          absurd (hblank ',' hmem) (by decide)
        apply hempty
        rw [← hstrip, ← hsplit, List.splitOn_eq_singleton hcomma, List.map_singleton,
          Text.strip_eq_nil_iff.mpr hblank]
      rw [argumentsOf_of_not_blank hblank, hsplit, hstrip]

/-- Arguments are stripped, and no character of theirs could have cut them. -/
theorem plain_of_mem_argumentsOf (hinner : Unparenthesized inner) :
    ∀ a ∈ argumentsOf inner, Text.strip a = a ∧ Unparenthesized a ∧ ',' ∉ a := by
  intro a ha
  by_cases hblank : ∀ c ∈ inner, isBlank c = true
  · rw [argumentsOf_of_blank hblank] at ha
    cases ha
  · rw [argumentsOf_of_not_blank hblank] at ha
    obtain ⟨piece, hpiece, rfl⟩ := List.mem_map.mp ha
    have hin : Text.strip piece ⊆ piece := (Text.strip_isInfix piece).subset
    have hsub : piece ⊆ inner := by
      intro c hc
      have hflat : c ∈ (inner.splitOn ',').flatten := List.mem_flatten.mpr ⟨piece, hpiece, hc⟩
      rw [Text.flatten_splitOn] at hflat
      exact List.mem_of_mem_filter hflat
    exact ⟨Text.strip_strip piece, hinner.mono (List.Subset.trans hin hsub),
      fun hmem => Text.not_mem_of_mem_splitOn hpiece (hin hmem)⟩

/-- A single argument is not empty, because blanks alone are no argument. -/
theorem argumentsOf_ne_singleton_nil (inner : List Char) : argumentsOf inner ≠ [[]] := by
  by_cases hblank : ∀ c ∈ inner, isBlank c = true
  · rw [argumentsOf_of_blank hblank]
    simp
  · rw [argumentsOf_of_not_blank hblank]
    intro h
    obtain ⟨piece, hsplit, hstrip⟩ := List.map_eq_singleton_iff.mp h
    obtain ⟨hwhole, -⟩ := (Text.splitOn_eq_iff (by simp)).mp hsplit
    rw [List.intercalate_singleton] at hwhole
    rw [hwhole] at hblank
    exact hblank (Text.strip_eq_nil_iff.mp hstrip)

/-- The characters of a list of arguments are those of the arguments, besides commas and blanks. -/
theorem Lists.unparenthesized (h : Lists arguments inner)
    (hplain : ∀ a ∈ arguments, Text.strip a = a ∧ Unparenthesized a) : Unparenthesized inner := by
  cases h with
  | blank hblank => exact unparenthesized_of_blank hblank
  | pieces hne hpads =>
    have hstrip := Text.map_strip_of_pads hpads fun a ha => (hplain a ha).1
    have hpieces : ∀ piece ∈ _, Unparenthesized piece := fun piece hpiece =>
      unparenthesized_of_pads (Text.pads_strip piece)
        (hplain _ (hstrip ▸ List.mem_map_of_mem hpiece)).2
    exact ⟨Text.not_mem_intercalate (by decide) fun piece hpiece => (hpieces piece hpiece).1,
      Text.not_mem_intercalate (by decide) fun piece hpiece => (hpieces piece hpiece).2⟩

/-! ### Texts of a call -/

/-- A call whose parts can be told apart in a text. -/
structure IsPlain (c : Call) : Prop where
  /-- The name has no blanks at its ends, -/
  stripped : Text.strip c.function.toList = c.function.toList
  /-- and no parentheses. -/
  unparenthesized : Unparenthesized c.function.toList
  /-- The arguments have neither, and no commas. -/
  arguments : ∀ a ∈ c.arguments, Text.strip a = a ∧ Unparenthesized a ∧ ',' ∉ a
  /-- A single argument is not empty. -/
  notEmpty : c.arguments ≠ [[]]

/-- The texts of a call: the name with blanks around it, and behind it the arguments between
parentheses, with blanks around each of them and behind it all. -/
def LaidOut (c : Call) (text : List Char) : Prop :=
  ∃ function inner tail, text = function ++ '(' :: (inner ++ ')' :: tail) ∧
    Text.Pads c.function.toList function ∧ Lists c.arguments inner ∧
    ∀ d ∈ tail, isBlank d = true

/-- A call that is read is plain. -/
theorem Cuts.isPlain (h : Cuts text function inner tail) :
    IsPlain ⟨String.ofList (Text.strip function), argumentsOf inner⟩ where
  stripped := by rw [String.toList_ofList, Text.strip_strip]
  unparenthesized := by
    rw [String.toList_ofList]
    exact h.function.mono (Text.strip_isInfix function).subset
  arguments := plain_of_mem_argumentsOf h.inner
  notEmpty := argumentsOf_ne_singleton_nil inner

theorem IsPlain.argumentsOf_eq_iff (h : IsPlain c) :
    argumentsOf inner = c.arguments ↔ Lists c.arguments inner :=
  Call.argumentsOf_eq_iff (fun a ha => ⟨(h.arguments a ha).1, (h.arguments a ha).2.2⟩) h.notEmpty

/-- **A call is read from the texts of it**, and from no other ones. -/
theorem result_parse_eq_ok_iff : (parse text).result = .ok c ↔ c.IsPlain ∧ c.LaidOut text := by
  rw [result_parse_eq_ok_iff_cuts]
  constructor
  · rintro ⟨function, inner, tail, h, rfl⟩
    refine ⟨h.isPlain, function, inner, tail, h.text_eq, ?_, h.isPlain.argumentsOf_eq_iff.mp rfl,
      h.tail⟩
    rw [String.toList_ofList]
    exact Text.pads_strip function
  · rintro ⟨hplain, function, inner, tail, rfl, hfunction, hinner, htail⟩
    refine ⟨function, inner, tail, ⟨rfl, ?_, ?_, htail⟩, ?_⟩
    · exact unparenthesized_of_pads hfunction hplain.unparenthesized
    · refine hinner.unparenthesized fun a ha => ?_
      obtain ⟨hstrip, hfree, -⟩ := hplain.arguments a ha
      exact ⟨hstrip, hfree⟩
    · rw [hplain.argumentsOf_eq_iff.mpr hinner, hfunction.strip_eq, hplain.stripped,
        String.ofList_toList]

/-! ### Calls as they are shown -/

theorem intercalate_comma_space (a : List Char) (rest : List (List Char)) :
    [',', ' '].intercalate (a :: rest) = [','].intercalate (a :: rest.map (' ' :: ·)) := by
  induction rest generalizing a with
  | nil => simp
  | cons b rest ih =>
    have hspace := Text.intercalate_append_cons [','] [' '] b (rest.map (' ' :: ·))
    rw [List.singleton_append] at hspace
    rw [List.intercalate_cons_cons, ih, List.map_cons, List.intercalate_cons_cons, hspace]
    simp

/-- A call as it is shown is one of the texts of it. -/
theorem laidOut_text (c : Call) : c.LaidOut c.text.toList := by
  refine ⟨c.function.toList, [',', ' '].intercalate c.arguments, [], ?_, Text.pads_self _, ?_,
    by simp⟩
  · rw [text]
    simp [String.toList_intercalate]
  · cases harguments : c.arguments with
    | nil => exact .blank (by simp)
    | cons a rest =>
      rw [intercalate_comma_space]
      refine .pieces (by simp) (.cons (Text.pads_self a) ?_)
      refine List.forall₂_map_right_iff.mpr (List.forall₂_same.mpr fun b _ => ?_)
      exact ⟨[' '], [], by simp, by simp [isBlank]⟩

/-- **Which texts are calls, and of what.** A text is a call if it has one pair of parentheses with
nothing but blanks behind it, and any other text is refused. What is read is plain, and a plain call
is read from each text of it, whatever blanks are around its parts. So a call that was read is read
again from the text that shows it. -/
theorem call_grammar (text : List Char) :
    ((∃ c, (parse text).result = .ok c) ↔ IsCallText text) ∧
      (¬ IsCallText text → (parse text).result =
        .error (.refused ⟨.malformed (.parentheses (String.ofList (Text.strip text))), none⟩)) ∧
      ∀ c, ((parse text).result = .ok c ↔ c.IsPlain ∧ c.LaidOut text) ∧
        ((parse text).result = .ok c → (parse c.text.toList).result = .ok c) := by
  have hread : (∃ c, (parse text).result = .ok c) ↔ IsCallText text := by
    simp only [result_parse_eq_ok_iff_cuts, isCallText_iff]
    constructor
    · rintro ⟨c, function, inner, tail, h, -⟩
      exact ⟨function, inner, tail, h⟩
    · rintro ⟨function, inner, tail, h⟩
      exact ⟨_, function, inner, tail, h, rfl⟩
  refine ⟨hread, fun hnot => ?_, fun c => ⟨result_parse_eq_ok_iff, fun hc => ?_⟩⟩
  · have hnone : ofText? (Text.strip text) = none := by
      rw [Option.eq_none_iff_forall_ne_some]
      intro c hc
      exact hnot (hread.mp ⟨c, parse_eq_ok_iff.mpr hc⟩)
    rw [parse, hnone]
    rfl
  · exact result_parse_eq_ok_iff.mpr ⟨(result_parse_eq_ok_iff.mp hc).1, c.laidOut_text⟩

/-- A call with an empty argument between two others, and blanks wherever they may be. -/
theorem call_grammar_loose :
    (parse " F ( a b,\t, c ) ".toList).result = .ok ⟨"F", ["a b".toList, [], ['c']]⟩ ∧
      (parse "F(a b, , c)".toList).result = .ok ⟨"F", ["a b".toList, [], ['c']]⟩ ∧
      (parse "F((a))".toList).result =
        .error (.refused ⟨.malformed (.parentheses "F((a))"), none⟩) := by
  have hcall : (parse " F ( a b,\t, c ) ".toList).result =
      .ok ⟨"F", ["a b".toList, [], ['c']]⟩ := by
    decide +kernel
  have htext : text ⟨"F", ["a b".toList, [], ['c']]⟩ = "F(a b, , c)" := by decide +kernel
  refine ⟨hcall, ?_, ?_⟩
  · rw [← htext]
    exact ((call_grammar " F ( a b,\t, c ) ".toList).2.2 _).2 hcall
  · refine (call_grammar "F((a))".toList).2.1 fun h => ?_
    exact absurd h.1 (by decide)

end Call

end ModelPatch

import Mathlib
import ModelPatch.Manifest.Basic
import ModelPatch.Proofs.WordsAndLines

/-!
# Line layout

How a manifest is laid out does not matter: which line breaks it has, which blanks stand around its
lines and which comments behind them. What is shown about one line is that it is cleaned to the same
text. A text has one line for each of its pieces between line feeds, so a change that stays within
the pieces leaves the lines alone, and with them everything that is read in the manifest.

A carriage return in front of a line feed may be taken for a part of the break or for a part of the
line, where it is a blank or belongs to a comment. The lines are the same either way.

## Main definitions

* `Line.breakLines`: a text cut at line breaks of both kinds;
* `Line.Edited`: a line with blanks around it or a comment behind it;
* `Line.Relaid`: a text that is laid out in another way.

## Main results

* `Line.clean_append`, `Line.clean_blanks_append`: blanks and comments around a line do not count;
* `Line.isPlain_clean`: there is nothing more to clean in a cleaned line;
* `Line.ofText_intercalate`: lines that are joined are the lines of the text;
* `Line.ofText_eq_breakLines`: carriage returns may be taken for a part of the break;
* `Line.layout`: lines are counted by line feeds, and the layout does not matter.
-/

namespace ModelPatch

/-! ### Blanks around a text -/

namespace Text

variable {p : Char → Bool} {front back cs : List Char}

theorem trimEnd_eq_nil (h : ∀ c ∈ cs, p c = true) : trimEnd p cs = [] := by
  induction cs with
  | nil => rfl
  | cons c cs ih =>
    rw [List.forall_mem_cons] at h
    simp [trimEnd, ih h.2, h.1]

theorem trimEnd_append (h : ∀ c ∈ back, p c = true) (front : List Char) :
    trimEnd p (front ++ back) = trimEnd p front := by
  induction front with
  | nil => exact trimEnd_eq_nil h
  | cons c front ih => rw [List.cons_append, trimEnd, trimEnd, ih]

/-- What is trimmed off may as well be missing behind the text, -/
theorem trim_append_back (h : ∀ c ∈ back, p c = true) (front : List Char) :
    trim p (front ++ back) = trim p front := by
  rw [trim, trim, List.dropWhile_append]
  split
  · next hnil =>
    rw [List.isEmpty_iff.mp hnil, List.dropWhile_eq_nil_iff.mpr h]
  · exact trimEnd_append h _

/-- and in front of it. -/
theorem trim_front_append (h : ∀ c ∈ front, p c = true) (back : List Char) :
    trim p (front ++ back) = trim p back := by
  rw [trim, trim, List.dropWhile_append, List.dropWhile_eq_nil_iff.mpr h, List.isEmpty_nil,
    if_pos rfl]

theorem strip_append_blanks (h : ∀ c ∈ back, isBlank c = true) (front : List Char) :
    strip (front ++ back) = strip front :=
  trim_append_back h front

theorem strip_blanks_append (h : ∀ c ∈ front, isBlank c = true) (back : List Char) :
    strip (front ++ back) = strip back :=
  trim_front_append h back

theorem strip_isInfix (cs : List Char) : strip cs <:+: cs :=
  (trimEnd_isPrefix isBlank _).isInfix.trans (List.dropWhile_suffix isBlank).isInfix

end Text

namespace Line

variable {front back raw edited cs : List Char}

/-! ### Comments -/

theorem beforeComment_isPrefix (cs : List Char) : beforeComment cs <+: cs := by
  fun_induction beforeComment cs with
  | case1 cs => exact List.nil_prefix
  | case2 c cs _ ih => exact List.cons_prefix_cons.mpr ⟨rfl, ih⟩
  | case3 => exact List.prefix_rfl

/-- No comment is left in front of the first comment. -/
theorem not_infix_beforeComment (cs : List Char) : ¬ ['/', '/'] <:+: beforeComment cs := by
  fun_induction beforeComment cs with
  | case1 cs => simp
  | case2 c cs hnot ih =>
    rw [List.infix_cons_iff, not_or]
    refine ⟨fun hat => ?_, ih⟩
    obtain ⟨rfl, hnext⟩ := List.cons_prefix_cons.mp hat
    obtain ⟨rest, rfl⟩ := hnext.trans (beforeComment_isPrefix cs)
    exact hnot rest rfl rfl
  | case3 => simp

/-- A comment starts within the front or within the back of a line, if no second slash comes to
stand behind a first one at the seam. -/
theorem beforeComment_append (hback : ∀ c ∈ back.head?, c ≠ '/') (front : List Char) :
    beforeComment (front ++ back) =
      beforeComment front ++ if beforeComment front = front then beforeComment back else [] := by
  fun_induction beforeComment front with
  | case1 cs => simp [beforeComment]
  | case2 c cs hnot ih =>
    -- No comment starts at `c`: a second slash would be in the front or at the seam.
    have hseam : ∀ rest, c = '/' → cs ++ back = '/' :: rest → False := by
      rintro rest rfl hrest
      cases cs with
      | nil => exact hback '/' (by rw [← List.nil_append back, hrest]; rfl) rfl
      | cons d cs =>
        obtain ⟨rfl, -⟩ := List.cons.inj hrest
        exact hnot cs rfl rfl
    rw [List.cons_append, beforeComment.eq_2 _ _ hseam, ih]
    simp
  | case3 => simp

theorem ne_slash_of_isBlank {c : Char} (h : isBlank c = true) : c ≠ '/' := by
  rintro rfl
  exact absurd h (by decide)

theorem beforeComment_blanks_append (h : ∀ c ∈ front, isBlank c = true) (back : List Char) :
    beforeComment (front ++ back) = front ++ beforeComment back := by
  induction front with
  | nil => rfl
  | cons c front ih =>
    rw [List.forall_mem_cons] at h
    have hslash : c ≠ '/' := ne_slash_of_isBlank h.1
    rw [List.cons_append, beforeComment.eq_2 _ _ (fun _ heq => absurd heq hslash), ih h.2,
      List.cons_append]

/-! ### Cleaned lines -/

/-- What stands behind a line does not count if it begins with a blank and is blank up to its
comment. -/
theorem clean_append (hhead : ∀ c ∈ back.head?, isBlank c = true)
    (hblank : ∀ c ∈ beforeComment back, isBlank c = true) (front : List Char) :
    clean (front ++ back) = clean front := by
  rw [clean, clean, beforeComment_append fun c hc => ne_slash_of_isBlank (hhead c hc)]
  split
  · exact Text.strip_append_blanks hblank _
  · rw [List.append_nil]

/-- Blanks behind a line do not count. -/
theorem clean_append_blanks (h : ∀ c ∈ back, isBlank c = true) (front : List Char) :
    clean (front ++ back) = clean front :=
  clean_append (fun c hc => h c (List.mem_of_mem_head? hc))
    (fun c hc => h c ((beforeComment_isPrefix back).mem hc)) front

/-- Blanks in front of a line do not count. -/
theorem clean_blanks_append (h : ∀ c ∈ front, isBlank c = true) (back : List Char) :
    clean (front ++ back) = clean back := by
  rw [clean, clean, beforeComment_blanks_append h, Text.strip_blanks_append h]

theorem lineFeed_not_mem_clean (h : '\n' ∉ cs) : '\n' ∉ clean cs := fun hmem =>
  h ((beforeComment_isPrefix cs).mem ((Text.strip_isInfix _).mem hmem))

/-- There is nothing more to clean in a cleaned line. -/
theorem isPlain_clean (h : '\n' ∉ cs) : IsPlain (clean cs) where
  lineFeedFree := lineFeed_not_mem_clean h
  commentFree hin := not_infix_beforeComment cs (hin.trans (Text.strip_isInfix _))
  stripped := Text.strip_strip _

/-! ### Edited lines -/

/-- A line with blanks around it or with a comment behind it. A carriage return at the end of the
line may stay at the end. -/
inductive Edited : List Char → List Char → Prop
  | kept (raw : List Char) : Edited raw raw
  | padded (raw before behind : List Char)
      (hblank : ∀ c ∈ before ++ behind, isBlank c = true ∧ c ≠ '\n') :
      Edited raw (before ++ (raw ++ behind))
  | commented (raw : List Char) (blank : Char) (comment : List Char)
      (hblank : isBlank blank = true ∧ blank ≠ '\n') (hcomment : '\n' ∉ comment) :
      Edited raw (raw ++ blank :: '/' :: '/' :: comment)
  | returned {raw edited : List Char} (h : Edited raw edited) :
      Edited (raw ++ ['\r']) (edited ++ ['\r'])

/-- An edited line is cleaned to the same text. -/
theorem Edited.clean_eq (h : Edited raw edited) : clean edited = clean raw := by
  induction h with
  | kept => rfl
  | padded _ before behind hblank =>
    have hbefore : ∀ c ∈ before, isBlank c = true := fun c hc =>
      (hblank c (List.mem_append_left _ hc)).1
    have hbehind : ∀ c ∈ behind, isBlank c = true := fun c hc =>
      (hblank c (List.mem_append_right _ hc)).1
    rw [clean_blanks_append hbefore, clean_append_blanks hbehind]
  | commented _ blank comment hblank =>
    have hslash : blank ≠ '/' := ne_slash_of_isBlank hblank.1
    refine clean_append (by simpa using hblank.1) ?_ _
    rw [beforeComment.eq_2 _ _ (fun _ heq => absurd heq hslash), beforeComment]
    simpa using hblank.1
  | returned _ ih =>
    have hreturn : ∀ c ∈ ['\r'], isBlank c = true := by simp [isBlank]
    rw [clean_append_blanks hreturn, clean_append_blanks hreturn, ih]

/-- No line feed gets into an edited line. -/
theorem Edited.lineFeed_not_mem (h : Edited raw edited) (hraw : '\n' ∉ raw) : '\n' ∉ edited := by
  induction h with
  | kept => exact hraw
  | padded _ before behind hblank =>
    have hpads : '\n' ∉ before ++ behind := fun hmem => (hblank '\n' hmem).2 rfl
    simp only [List.mem_append, not_or] at hpads ⊢
    exact ⟨hpads.1, hraw, hpads.2⟩
  | commented _ blank comment hblank hcomment =>
    simp [hraw, hblank.2.symm, hcomment]
  | returned _ ih =>
    simp only [List.mem_append, not_or] at hraw ⊢
    exact ⟨ih hraw.1, hraw.2⟩

/-! ### Texts -/

variable {text text' : List Char} {pieces pieces' : List (List Char)} {c : Char}

/-- A text has one piece more than line feeds. -/
theorem length_splitOn_lineFeed (text : List Char) :
    (text.splitOn '\n').length = text.count '\n' + 1 :=
  Text.length_splitOn '\n' text

theorem ofText_eq_numbered (text : List Char) :
    ofText text = numbered 1 ((text.splitOn '\n').map clean) := by
  rw [ofText, numbered, List.zipIdx_map, List.map_map]
  rfl

/-- Lines that are cleaned to the same, one by one, are the same together. -/
theorem map_clean_congr (h : List.Forall₂ (fun raw raw' => clean raw' = clean raw) pieces pieces') :
    pieces'.map clean = pieces.map clean := by
  induction h with
  | nil => rfl
  | cons hclean _ ih => rw [List.map_cons, List.map_cons, hclean, ih]

/-- Lines that are joined are the lines of the text. -/
theorem ofText_intercalate (hne : pieces ≠ []) (hfree : ∀ raw ∈ pieces, '\n' ∉ raw) :
    ofText (['\n'].intercalate pieces) = numbered 1 (pieces.map clean) := by
  rw [ofText_eq_numbered, List.splitOn_intercalate '\n' hfree hne]

/-! ### Carriage returns -/

/-- A line with or without a carriage return behind it. -/
def Returned (raw raw' : List Char) : Prop :=
  raw' = raw ∨ raw' = raw ++ ['\r']

theorem Returned.clean_eq (h : Returned raw edited) : clean edited = clean raw := by
  rcases h with rfl | rfl
  · rfl
  · exact clean_append_blanks (by simp [isBlank]) raw

theorem Returned.cons (h : Returned raw edited) (c : Char) : Returned (c :: raw) (c :: edited) := by
  rcases h with rfl | rfl
  · exact .inl rfl
  · exact .inr rfl

theorem map_clean_of_returned (h : List.Forall₂ Returned pieces pieces') :
    pieces'.map clean = pieces.map clean :=
  map_clean_congr (h.imp fun _ _ hreturned => hreturned.clean_eq)

theorem forall₂_cons_modifyHead (h : List.Forall₂ Returned pieces pieces') (c : Char) :
    List.Forall₂ Returned (pieces.modifyHead (c :: ·)) (pieces'.modifyHead (c :: ·)) := by
  cases h with
  | nil => exact .nil
  | cons hfirst hrest => exact .cons (hfirst.cons c) hrest

/-- A text with a carriage return in front of every line feed. -/
def withReturns (text : List Char) : List Char :=
  text.flatMap fun c => if c = '\n' then ['\r', '\n'] else [c]

theorem withReturns_cons (c : Char) (text : List Char) :
    withReturns (c :: text) = (if c = '\n' then ['\r', '\n'] else [c]) ++ withReturns text :=
  List.flatMap_cons

theorem forall₂_withReturns (text : List Char) :
    List.Forall₂ Returned (text.splitOn '\n') ((withReturns text).splitOn '\n') := by
  induction text with
  | nil => exact .cons (.inl rfl) .nil
  | cons c text ih =>
    rw [withReturns_cons]
    by_cases h : c = '\n'
    · have hreturn : '\r' ≠ '\n' := by decide
      rw [if_pos h, h, Text.splitOn_cons_self, List.cons_append, Text.splitOn_cons_of_ne hreturn,
        List.singleton_append, Text.splitOn_cons_self]
      exact .cons (.inr rfl) ih
    · rw [if_neg h, Text.splitOn_cons_of_ne h, List.singleton_append, Text.splitOn_cons_of_ne h]
      exact forall₂_cons_modifyHead ih c

/-- A text cut at its line breaks, which are line feeds with or without a carriage return in
front. -/
def breakLines : List Char → List (List Char)
  | [] => [[]]
  | '\r' :: '\n' :: rest => [] :: breakLines rest
  | '\n' :: rest => [] :: breakLines rest
  | c :: rest => (breakLines rest).modifyHead (c :: ·)

theorem forall₂_breakLines (text : List Char) :
    List.Forall₂ Returned (breakLines text) (text.splitOn '\n') := by
  fun_induction breakLines text with
  | case1 => exact .cons (.inl rfl) .nil
  | case2 rest ih =>
    have hreturn : '\r' ≠ '\n' := by decide
    rw [Text.splitOn_cons_of_ne hreturn, Text.splitOn_cons_self]
    exact .cons (.inr rfl) ih
  | case3 rest ih =>
    rw [Text.splitOn_cons_self]
    exact .cons (.inl rfl) ih
  | case4 c rest _ hfeed ih =>
    rw [Text.splitOn_cons_of_ne hfeed]
    exact forall₂_cons_modifyHead ih c

/-- A carriage return in front of a line feed may be taken for a part of the break. -/
theorem ofText_eq_breakLines (text : List Char) :
    ofText text = numbered 1 ((breakLines text).map clean) := by
  rw [ofText_eq_numbered, map_clean_of_returned (forall₂_breakLines text)]

/-! ### Layout -/

/-- A text that is laid out in another way: with carriage returns in front of its line feeds, as
nothing but its cleaned lines, or with edited lines. -/
inductive Relaid (text : List Char) : List Char → Prop
  | returns : Relaid text (withReturns text)
  | reread : Relaid text (['\n'].intercalate ((ofText text).map content))
  | edited {pieces : List (List Char)} (h : List.Forall₂ Edited (text.splitOn '\n') pieces) :
      Relaid text (['\n'].intercalate pieces)

theorem map_content_ofText (text : List Char) :
    (ofText text).map content = (text.splitOn '\n').map clean := by
  rw [ofText_eq_numbered, map_content_numbered]

theorem lineFeed_not_mem_of_edited (h : List.Forall₂ Edited pieces pieces')
    (hfree : ∀ raw ∈ pieces, '\n' ∉ raw) : ∀ raw ∈ pieces', '\n' ∉ raw := by
  induction h with
  | nil => exact hfree
  | cons hedited _ ih =>
    rw [List.forall_mem_cons] at hfree ⊢
    exact ⟨hedited.lineFeed_not_mem hfree.1, ih hfree.2⟩

/-- **One change of the layout leaves the lines alone.** It changes pieces into pieces that are
cleaned to the same. -/
theorem Relaid.ofText_eq (h : Relaid text text') : ofText text' = ofText text := by
  have hne : text.splitOn '\n' ≠ [] := List.splitOn_ne_nil _ _
  have hfree : ∀ raw ∈ text.splitOn '\n', '\n' ∉ raw := fun _ => Text.not_mem_of_mem_splitOn
  rw [ofText_eq_numbered text]
  cases h with
  | returns => rw [ofText_eq_numbered, map_clean_of_returned (forall₂_withReturns text)]
  | reread =>
    have hclean : ∀ raw ∈ (text.splitOn '\n').map clean, '\n' ∉ raw := by
      rw [List.forall_mem_map]
      exact fun raw hraw => lineFeed_not_mem_clean (hfree raw hraw)
    have hsame : ((text.splitOn '\n').map clean).map clean = (text.splitOn '\n').map clean := by
      rw [List.map_map]
      exact List.map_congr_left fun raw hraw => clean_eq_self (isPlain_clean (hfree raw hraw))
    rw [map_content_ofText, ofText_intercalate (by simp [hne]) hclean, hsame]
  | @edited pieces h =>
    have hpieces : pieces ≠ [] := by
      rintro rfl
      exact hne (List.forall₂_nil_right_iff.mp h)
    rw [ofText_intercalate hpieces (lineFeed_not_mem_of_edited h hfree),
      map_clean_congr (h.imp fun _ _ hedited => hedited.clean_eq)]

/-- **Lines are counted by line feeds, and the layout does not matter.** The lines of a text are what
stands between its line breaks, cleaned. There is one more of them than line feeds, and they are
numbered from one without a gap. However often the text is laid out in another way, its lines stay
the same, and so does everything that is read in a manifest of that text, errors and their locations
included. -/
theorem layout (text : List Char) :
    ofText text = numbered 1 ((breakLines text).map clean) ∧
      (ofText text).length = text.count '\n' + 1 ∧
      (ofText text).map number =
        (List.range' 1 (text.count '\n' + 1)).map (fun n : Nat => (n : Int)) ∧
      ∀ text', Relation.ReflTransGen Relaid text text' →
        ofText text' = ofText text ∧
          ∀ (file : String) (source source' : Manifest.Source), source.decode = text →
            source'.decode = text' → Manifest.parse file source' = Manifest.parse file source := by
  refine ⟨ofText_eq_breakLines text, ?_, ?_, fun text' h => ?_⟩
  · rw [ofText_eq_numbered, length_numbered, List.length_map, length_splitOn_lineFeed]
  · rw [ofText_eq_numbered, map_number_numbered, List.length_map, length_splitOn_lineFeed]
  · have hlines : ofText text' = ofText text := by
      induction h with
      | refl => rfl
      | tail _ hstep ih => rw [hstep.ofText_eq, ih]
    refine ⟨hlines, ?_⟩
    rintro file source source' rfl rfl
    rw [Manifest.parse, Manifest.parse, hlines]

/-- A dictionary without names, neatly laid out. -/
def neatText : List Char :=
  "DICTIONARY\n\nEND".toList

/-- The same dictionary with carriage returns and comments. -/
def roughText : List Char :=
  "DICTIONARY\t// none\r\n \r\nEND //".toList

/-- The neat text is laid out roughly in two steps, and what is read in it is the same. -/
theorem layout_rough :
    Relation.ReflTransGen Relaid neatText roughText ∧ ofText roughText = ofText neatText ∧
      Manifest.parse "rough" (.text roughText) = Manifest.parse "rough" (.text neatText) := by
  have hreturns : Relaid neatText (withReturns neatText) := .returns
  have hpieces : (withReturns neatText).splitOn '\n' =
      ["DICTIONARY".toList ++ ['\r'], [] ++ ['\r'], "END".toList] := by decide
  have hedited : List.Forall₂ Edited ((withReturns neatText).splitOn '\n')
      ["DICTIONARY".toList ++ '\t' :: '/' :: '/' :: " none".toList ++ ['\r'],
        [' '] ++ ([] ++ []) ++ ['\r'], "END".toList ++ ' ' :: '/' :: '/' :: []] := by
    rw [hpieces]
    refine .cons (.returned (.commented _ _ _ (by decide) (by decide))) ?_
    refine .cons (.returned (.padded _ _ _ (by simp [isBlank]))) ?_
    exact .cons (.commented _ _ _ (by decide) (by decide)) .nil
  have hrough : Relation.ReflTransGen Relaid neatText roughText :=
    (Relation.ReflTransGen.single hreturns).tail (.edited hedited)
  obtain ⟨hlines, hparse⟩ := (layout neatText).2.2.2 roughText hrough
  exact ⟨hrough, hlines, hparse "rough" (.text neatText) (.text roughText) rfl rfl⟩

end Line

end ModelPatch

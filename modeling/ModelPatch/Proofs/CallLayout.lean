import Mathlib
import ModelPatch.Proofs.PoolGroups

/-!
# Calls and line breaks

The calls of a group end at semicolons, and every line of the group is cut at its semicolons by
itself. So a line break ends a call as well. If it stands next to a semicolon, this makes no
difference, and the calls of the group are those of its text, put together from all lines. A line
break inside a call makes two calls of it, neither of which is what was meant.

The count carries the argument: a break inside a call makes exactly one call more, so that breaks
cannot make up for each other.

## Main definitions

* `Group.callTexts`: the texts of the calls of a group;
* `Group.CutsPiece`: a break between two texts goes through a piece;
* `Group.cutPieces`: how many breaks between the lines of a group do;
* `Run.text`: the text of a group, put together from its lines.

## Main results

* `Group.pieces_append_cons`: pieces split at a semicolon;
* `Group.length_pieces_append`: a break through a piece makes one piece more;
* `Group.flatMap_pieces_eq_iff`: lines have the pieces of their text if no break goes through one;
* `Pool.call_texts`: which layouts of a pool keep its calls;
* `Pool.call_cut_in_two`: a call that is lost by a line break.
-/

namespace ModelPatch

namespace Group

variable {a b w : List Char} {texts : List (List Char)}

/-! ### Pieces -/

/-- The texts of the calls of a group. -/
def callTexts (g : Group) : List (List Char) :=
  g.calls.map PlacedCall.text

/-- **Pieces split at a semicolon.** -/
theorem pieces_append_cons (a b : List Char) : pieces (a ++ ';' :: b) = pieces a ++ pieces b := by
  rw [pieces, List.splitOn_append_cons_self, List.filter_append]
  rfl

/-- A text without semicolons is one piece. -/
theorem pieces_eq_singleton (hne : w ≠ []) (hw : ';' ∉ w) : pieces w = [w] := by
  rw [pieces, List.splitOn_eq_singleton hw]
  simp [hne]

/-- A break between two texts goes through a piece: there is a character on either side of it, and
neither is a semicolon. -/
def CutsPiece (a b : List Char) : Prop :=
  (∃ c ∈ a.getLast?, c ≠ ';') ∧ ∃ c ∈ b.head?, c ≠ ';'

instance (a b : List Char) : Decidable (CutsPiece a b) :=
  decidable_of_iff (a.getLast?.any (· ≠ ';') = true ∧ b.head?.any (· ≠ ';') = true)
    (by simp [CutsPiece, Option.any_eq_true])

@[simp] theorem pieces_nil : pieces [] = [] := rfl

@[simp] theorem pieces_semicolon_cons (b : List Char) : pieces (';' :: b) = pieces b :=
  pieces_append_cons [] b

@[simp] theorem pieces_concat_semicolon (a : List Char) : pieces (a ++ [';']) = pieces a := by
  rw [pieces_append_cons, pieces_nil, List.append_nil]

/-- A break next to a semicolon goes between pieces. -/
theorem pieces_append (h : ¬ CutsPiece a b) : pieces (a ++ b) = pieces a ++ pieces b := by
  rcases List.eq_nil_or_concat' a with rfl | ⟨front, c, rfl⟩
  · rfl
  cases b with
  | nil => simp
  | cons d back =>
    have hsep : c = ';' ∨ d = ';' := by
      by_contra hboth
      rw [not_or] at hboth
      exact h ⟨⟨c, by simp, hboth.1⟩, ⟨d, rfl, hboth.2⟩⟩
    rcases hsep with rfl | rfl
    · rw [List.append_assoc, List.singleton_append, pieces_append_cons, pieces_concat_semicolon]
    · rw [pieces_append_cons, pieces_semicolon_cons]

/-- A text that begins with no semicolon begins with a piece. -/
theorem exists_first_piece (h : ∃ c ∈ b.head?, c ≠ ';') :
    ∃ w back, b = w ++ back ∧ w ≠ [] ∧ ';' ∉ w ∧ ∀ c ∈ back.head?, c = ';' := by
  refine ⟨b.takeWhile (· ≠ ';'), b.dropWhile (· ≠ ';'), List.takeWhile_append_dropWhile.symm,
    ?_, ?_, ?_⟩
  · obtain ⟨c, hhead, hc⟩ := h
    obtain ⟨rest, rfl⟩ := List.head?_eq_some_iff.mp hhead
    simp [hc]
  · intro hmem
    simpa using List.mem_takeWhile_imp hmem
  · intro c hc
    have hnot := List.head?_dropWhile_not (fun c => decide (c ≠ ';')) b
    rw [Option.mem_def.mp hc] at hnot
    simpa using hnot

/-- A text that ends with no semicolon ends with a piece. -/
theorem exists_last_piece (h : ∃ c ∈ a.getLast?, c ≠ ';') :
    ∃ front w, a = front ++ w ∧ w ≠ [] ∧ ';' ∉ w ∧ ∀ c ∈ front.getLast?, c = ';' := by
  rw [← List.head?_reverse] at h
  obtain ⟨w, back, hsplit, hne, hw, hback⟩ := exists_first_piece h
  refine ⟨back.reverse, w.reverse, ?_, by simpa using hne, by simpa using hw, ?_⟩
  · rw [← List.reverse_append, ← hsplit, List.reverse_reverse]
  · rwa [List.getLast?_reverse]

/-- A break through a piece makes one piece more. -/
theorem length_pieces_append (h : CutsPiece a b) :
    (pieces a).length + (pieces b).length = (pieces (a ++ b)).length + 1 := by
  obtain ⟨front, w, rfl, hne, hw, hfront⟩ := exists_last_piece h.1
  obtain ⟨w', back, rfl, hne', hw', hback⟩ := exists_first_piece h.2
  have hbefore : ∀ text, pieces (front ++ text) = pieces front ++ pieces text := by
    refine fun text => pieces_append ?_
    rintro ⟨⟨c, hc, hsep⟩, -⟩
    exact hsep (hfront c hc)
  have hbehind : ∀ text, pieces (text ++ back) = pieces text ++ pieces back := by
    refine fun text => pieces_append ?_
    rintro ⟨-, ⟨c, hc, hsep⟩⟩
    exact hsep (hback c hc)
  have hwhole : front ++ w ++ (w' ++ back) = front ++ (w ++ w' ++ back) := by simp
  have hjoined : pieces (w ++ w') = [w ++ w'] :=
    pieces_eq_singleton (by simp [hne]) (by simp [hw, hw'])
  rw [hwhole, hbefore, hbefore, hbehind, hbehind, pieces_eq_singleton hne hw,
    pieces_eq_singleton hne' hw', hjoined]
  simp only [List.length_append, List.length_singleton]
  omega

/-! ### Lines -/

/-- The number of breaks between texts that go through a piece of the whole. -/
def cutPieces : List (List Char) → Nat
  | [] => 0
  | text :: rest => (if CutsPiece text rest.flatten then 1 else 0) + cutPieces rest

/-- Each break through a piece makes one piece more. -/
theorem length_flatMap_pieces (texts : List (List Char)) :
    (texts.flatMap pieces).length = (pieces texts.flatten).length + cutPieces texts := by
  induction texts with
  | nil => rfl
  | cons text rest ih =>
    rw [List.flatMap_cons, List.length_append, ih, List.flatten_cons, cutPieces]
    by_cases h : CutsPiece text rest.flatten
    · have hcut := length_pieces_append h
      rw [if_pos h]
      omega
    · rw [if_neg h, pieces_append h, List.length_append]
      omega

/-- **Texts have the pieces of the whole exactly if no break goes through one.** -/
theorem flatMap_pieces_eq_iff :
    texts.flatMap pieces = pieces texts.flatten ↔ cutPieces texts = 0 := by
  constructor
  · intro h
    have hlength := length_flatMap_pieces texts
    rw [h] at hlength
    omega
  · intro h
    induction texts with
    | nil => rfl
    | cons text rest ih =>
      rw [cutPieces, Nat.add_eq_zero_iff] at h
      have hbetween : ¬ CutsPiece text rest.flatten := by simpa using h.1
      rw [List.flatMap_cons, ih h.2, List.flatten_cons, pieces_append hbetween]

end Group

/-! ### Groups -/

namespace Run

/-- The texts of the calls on the lines of a run. -/
def texts (r : Run) : List (List Char) :=
  r.lines.map Line.callText

/-- The text of a run: what stands behind the colon of its label, put together from all lines. -/
def text (r : Run) : List Char :=
  r.texts.flatten

/-- Each line is cut into calls by itself. -/
theorem callTexts_group (file : String) (r : Run) :
    (r.group file).callTexts = r.texts.flatMap Group.pieces := by
  simp only [Group.callTexts, group, texts, Line.calls, List.map_flatMap, List.flatMap_map,
    List.map_map]
  refine List.flatMap_congr fun l _ => ?_
  exact List.map_id _

end Run

namespace Pool

variable {file : String} {header : Line} {body : List Line} {pool : Pool}

/-- **Which layouts keep the calls.** The groups of a pool are the runs of its lines. The calls of a
group are those of its text, put together from all lines, exactly if no line break goes through one;
each line break that does makes one call more. So if the line breaks in a text are moved, the calls
stay the same as long as none of the breaks goes through a call, and no longer. -/
theorem call_texts (h : (parse file header body).result = .ok pool) :
    ∃ (declaration : Line) (front : List Line) (runs : List Run),
      Declares header body declaration (front ++ runs.flatMap Run.lines) ∧
      (∀ l ∈ front, l.bare = []) ∧ (∀ r ∈ runs, r.IsRun) ∧
      pool.groups = runs.map (Run.group file) ∧
      ∀ r ∈ runs,
        ((r.group file).callTexts = Group.pieces r.text ↔ Group.cutPieces r.texts = 0) ∧
        (r.group file).callTexts.length =
          (Group.pieces r.text).length + Group.cutPieces r.texts ∧
        ∀ r' : Run, r'.text = r.text → Group.cutPieces r'.texts = 0 →
          ((r.group file).callTexts = (r'.group file).callTexts ↔ Group.cutPieces r.texts = 0) := by
  obtain ⟨declaration, rest, hsplit, -, hgroups⟩ := result_parse_eq_ok_iff.mp h
  obtain ⟨-, hfront, hruns⟩ := (Group.result_collect_none file rest).mp hgroups
  refine ⟨declaration, (Run.ofLines rest).1, (Run.ofLines rest).2, ?_, hfront,
    Run.isRun_of_mem_ofLines rest, hruns, fun r _ => ⟨?_, ?_, fun r' htext hcut => ?_⟩⟩
  · rwa [Run.append_ofLines]
  · rw [Run.callTexts_group]
    exact Group.flatMap_pieces_eq_iff
  · rw [Run.callTexts_group]
    exact Group.length_flatMap_pieces r.texts
  · have hwhole : (r'.group file).callTexts = Group.pieces r.text := by
      rw [Run.callTexts_group, Group.flatMap_pieces_eq_iff.mpr hcut, ← htext]
      rfl
    rw [hwhole, Run.callTexts_group]
    exact Group.flatMap_pieces_eq_iff

/-- A group whose line breaks stand next to semicolons, or between blank lines. -/
def looseRun : Run where
  head := ⟨"A:CallList(B)".toList, 2⟩
  tail := [⟨[], 3⟩, ⟨";PopMatrix(1);".toList, 4⟩, ⟨"PopMatrix(2)".toList, 5⟩]

/-- The same text on one line. -/
def denseRun : Run where
  head := ⟨"A:CallList(B);PopMatrix(1);PopMatrix(2)".toList, 2⟩
  tail := []

/-- The same text with a line break in its first call. -/
def cutRun : Run where
  head := ⟨"A:CallList(".toList, 2⟩
  tail := [⟨"B);PopMatrix(1);PopMatrix(2)".toList, 3⟩]

/-- A declaration. -/
def plainHeader : Line := ⟨"=0,100".toList, 1⟩

theorem call_texts_loose :
    (parse "pool" plainHeader looseRun.lines).result =
        .ok ⟨⟨0, 0x100⟩, [looseRun.group "pool"]⟩ ∧
      denseRun.text = looseRun.text ∧
      (looseRun.group "pool").callTexts = (denseRun.group "pool").callTexts := by
  have hparse : (parse "pool" plainHeader looseRun.lines).result =
      .ok ⟨⟨0, 0x100⟩, [looseRun.group "pool"]⟩ := by decide +kernel
  have htext : denseRun.text = looseRun.text := by decide +kernel
  refine ⟨hparse, htext, ?_⟩
  obtain ⟨declaration, front, runs, hsplit, hfront, hruns, -, hcalls⟩ := call_texts hparse
  have hlines : front ++ runs.flatMap Run.lines = looseRun.lines := by
    rcases hsplit with ⟨-, -, hrest⟩ | ⟨hempty, -⟩
    · exact hrest
    · cases hempty
  have honly : (front, runs) = ([], [looseRun]) := by
    rw [← Run.ofLines_append (fun l hl => by simp [hfront l hl]) hruns, hlines]
    rfl
  obtain ⟨rfl, rfl⟩ := Prod.mk.inj honly
  obtain ⟨-, -, hlayout⟩ := hcalls looseRun List.mem_cons_self
  exact (hlayout denseRun htext (by decide +kernel)).mpr (by decide +kernel)

/-- **A call can be cut in two.** The section is read, but a line break makes two calls of the first
one, so that its calls are neither those of its text nor those of the same text on one line. -/
theorem call_cut_in_two :
    (parse "pool" plainHeader cutRun.lines).result = .ok ⟨⟨0, 0x100⟩, [cutRun.group "pool"]⟩ ∧
      cutRun.text = denseRun.text ∧
      (cutRun.group "pool").callTexts =
        ["CallList(", "B)", "PopMatrix(1)", "PopMatrix(2)"].map String.toList ∧
      (cutRun.group "pool").callTexts ≠ Group.pieces cutRun.text ∧
      (cutRun.group "pool").callTexts ≠ (denseRun.group "pool").callTexts := by
  decide +kernel

end Pool

end ModelPatch

import Mathlib
import ModelPatch.Proofs.DeclarationGrammar

/-!
# The groups of a pool

The lines of a pool are read one by one, with one group open at a time. What comes out can be said
without this state: the lines are cut in front of each line with a colon, and every run of lines
that arises is a group. The lines in front of the first run must be blank, because there is no group
for their calls, and no label may be empty.

The runs are found from the end of the lines, where nothing is open, and the reading goes from the
front. The two meet in `Group.result_collect_some`, which is stated for any group that is open: it
takes the calls of the lines up to the next colon.

## Main definitions

* `Group.pieces`: the parts of a text between semicolons that are not empty;
* `Line.label`, `Line.callText`: the parts of a line on either side of its first colon;
* `Line.calls`: the pieces of a line, each at the place of the line;
* `Run`: a line with a colon, and the lines behind it up to the next one;
* `Run.ofLines`: lines, cut into runs;
* `Run.group`: the group that a run describes;
* `Pool.Declares`: which line is the declaration, and which lines remain.

## Main results

* `Run.append_ofLines`, `Run.ofLines_append`: the cutting loses nothing, and there is only one;
* `Group.result_collect_some`, `Group.result_collect_none`: reading lines is cutting them into runs;
* `Pool.parse_groups`: which sections are read, and what is read from them.
-/

namespace ModelPatch

/-! ### Lists -/

/-- What is left when the front of a list is dropped begins with the first item that is kept. -/
theorem dropWhile_eq_cons_iff {α : Type} {p : α → Bool} {xs rest : List α} {x : α} :
    xs.dropWhile p = x :: rest ↔
      p x = false ∧ ∃ front, (∀ y ∈ front, p y = true) ∧ xs = front ++ x :: rest := by
  constructor
  · intro h
    have hkept := List.head?_dropWhile_not p xs
    rw [h] at hkept
    refine ⟨by simpa using hkept, xs.takeWhile p, fun _ => List.mem_takeWhile_imp, ?_⟩
    rw [← h, List.takeWhile_append_dropWhile]
  · rintro ⟨hx, front, hfront, rfl⟩
    rw [List.dropWhile_append_of_pos hfront, List.dropWhile_cons_of_neg (by simp [hx])]

/-! ### Parts of a line -/

/-- The parts of a text between semicolons that are not empty. -/
def Group.pieces (text : List Char) : List (List Char) :=
  (text.splitOn ';').filter fun piece => !piece.isEmpty

namespace Line

/-- The text of a line without its blanks. -/
def bare (l : Line) : List Char :=
  Text.dropBlanks l.content

/-- The text before the first colon. -/
def label (l : Line) : List Char :=
  l.bare.takeWhile (· ≠ ':')

/-- The text of the calls of a line: what stands behind its first colon, or all of it if it has
none. -/
def callText (l : Line) : List Char :=
  if ':' ∈ l.bare then (l.bare.dropWhile (· ≠ ':')).tail else l.bare

/-- The calls of a line: the pieces of its text, in their order and at its place. -/
def calls (file : String) (l : Line) : List PlacedCall :=
  (Group.pieces l.callText).map fun piece => ⟨piece, l.location file⟩

/-- What is read from the text of a line are the calls of the line. -/
theorem callsOf_callText (file : String) (l : Line) :
    Group.callsOf (l.location file) l.callText = l.calls file := rfl

/-- The line with all its blanks removed. -/
def withoutBlanks (l : Line) : Line :=
  { l with content := l.bare }

/-- A line with a colon is cut into its label and its calls. -/
theorem cutAt_bare {l : Line} (h : ':' ∈ l.bare) :
    cutAt ':' l.bare = some (l.label, l.callText) := by
  obtain ⟨front, back, hsplit, hfront⟩ := List.eq_append_cons_of_mem h
  have hbefore : ∀ c ∈ front, decide (c ≠ ':') = true := by
    intro c hc
    exact decide_eq_true (ne_of_mem_of_not_mem hc hfront)
  rw [cutAt_eq_some_iff, callText, if_pos h, label, hsplit,
    List.takeWhile_append_of_pos hbefore, List.dropWhile_append_of_pos hbefore]
  simpa using hfront

/-- The label of a line is empty if the line begins with a colon. -/
theorem label_eq_nil_iff {l : Line} (h : ':' ∈ l.bare) :
    l.label = [] ↔ l.bare.head? = some ':' := by
  rw [label]
  cases hbare : l.bare with
  | nil => simp [hbare] at h
  | cons c cs => by_cases hc : c = ':' <;> simp [hc]

theorem callText_of_not_mem {l : Line} (h : ':' ∉ l.bare) : l.callText = l.bare :=
  if_neg h

/-- A blank line has no calls. -/
theorem calls_of_bare_eq_nil {l : Line} (file : String) (h : l.bare = []) : l.calls file = [] := by
  rw [calls, callText_of_not_mem (by simp [h]), h]
  rfl

end Line

/-! ### Runs -/

/-- A line, and some lines behind it. -/
structure Run where
  /-- The first line. -/
  head : Line
  /-- The other lines. -/
  tail : List Line

namespace Run

/-- The lines of a run. -/
def lines (r : Run) : List Line :=
  r.head :: r.tail

/-- The first line of a run has a colon, and no other has. -/
structure IsRun (r : Run) : Prop where
  /-- The first line opens a group. -/
  head : ':' ∈ r.head.bare
  /-- The others belong to it. -/
  tail : ∀ l ∈ r.tail, ':' ∉ l.bare

/-- The group that a run describes: it is labelled and placed by its first line, and each line adds
its calls. -/
def group (file : String) (r : Run) : Group :=
  ⟨String.ofList r.head.label, r.head.location file, r.lines.flatMap (Line.calls file)⟩

/-- Lines, cut in front of each line with a colon: the lines before the first cut, and the runs. -/
def ofLines : List Line → List Line × List Run
  | [] => ([], [])
  | l :: rest =>
    let (front, runs) := ofLines rest
    if ':' ∈ l.bare then ([], ⟨l, front⟩ :: runs) else (l :: front, runs)

variable {l : Line} {lines front : List Line} {runs : List Run}

theorem ofLines_cons_of_mem (h : ':' ∈ l.bare) (rest : List Line) :
    ofLines (l :: rest) = ([], ⟨l, (ofLines rest).1⟩ :: (ofLines rest).2) := by
  simp [ofLines, h]

theorem ofLines_cons_of_not_mem (h : ':' ∉ l.bare) (rest : List Line) :
    ofLines (l :: rest) = (l :: (ofLines rest).1, (ofLines rest).2) := by
  simp [ofLines, h]

/-- Cutting loses no line and moves none. -/
theorem append_ofLines (lines : List Line) :
    (ofLines lines).1 ++ (ofLines lines).2.flatMap Run.lines = lines := by
  induction lines with
  | nil => rfl
  | cons l rest ih =>
    by_cases h : ':' ∈ l.bare
    · rw [ofLines_cons_of_mem h, List.flatMap_cons, Run.lines, List.nil_append, List.cons_append,
        ih]
    · rw [ofLines_cons_of_not_mem h, List.cons_append, ih]

theorem not_mem_of_mem_ofLines (lines : List Line) : ∀ l ∈ (ofLines lines).1, ':' ∉ l.bare := by
  induction lines with
  | nil => simp [ofLines]
  | cons l rest ih =>
    by_cases h : ':' ∈ l.bare
    · simp [ofLines_cons_of_mem h]
    · rw [ofLines_cons_of_not_mem h, List.forall_mem_cons]
      exact ⟨h, ih⟩

theorem isRun_of_mem_ofLines (lines : List Line) : ∀ r ∈ (ofLines lines).2, r.IsRun := by
  induction lines with
  | nil => simp [ofLines]
  | cons l rest ih =>
    by_cases h : ':' ∈ l.bare
    · rw [ofLines_cons_of_mem h, List.forall_mem_cons]
      exact ⟨⟨h, not_mem_of_mem_ofLines rest⟩, ih⟩
    · rw [ofLines_cons_of_not_mem h]
      exact ih

/-- **There is only one way to cut lines into runs.** -/
theorem ofLines_append (hfront : ∀ l ∈ front, ':' ∉ l.bare) (hruns : ∀ r ∈ runs, r.IsRun) :
    ofLines (front ++ runs.flatMap Run.lines) = (front, runs) := by
  induction runs generalizing front with
  | nil =>
    rw [List.flatMap_nil, List.append_nil]
    induction front with
    | nil => rfl
    | cons l front ih =>
      rw [List.forall_mem_cons] at hfront
      rw [ofLines_cons_of_not_mem hfront.1, ih hfront.2]
  | cons r runs ih =>
    rw [List.forall_mem_cons] at hruns
    induction front with
    | nil =>
      have htail := ih hruns.1.tail hruns.2
      rw [List.nil_append, List.flatMap_cons, Run.lines, List.cons_append,
        ofLines_cons_of_mem hruns.1.head, htail]
    | cons l front ihfront =>
      rw [List.forall_mem_cons] at hfront
      rw [List.cons_append, ofLines_cons_of_not_mem hfront.1, ihfront hfront.2]

end Run

/-! ### Reading groups -/

namespace Group

variable {l : Line} {lines : List Line} {g : Group} {groups : List Group}

theorem result_collect_nil (file : String) (current : Option Group) :
    (collect file current []).result = .ok current.toList := rfl

/-- A blank line leaves the open group as it is. -/
theorem collect_blank (file : String) (current : Option Group) (h : l.bare = [])
    (rest : List Line) : collect file current (l :: rest) = collect file current rest := by
  rw [Line.bare] at h
  conv_lhs => unfold collect
  simp [h]

/-- A line with a colon closes the open group and opens the next one, unless its label is empty. -/
theorem result_collect_colon (file : String) (current : Option Group) (h : ':' ∈ l.bare)
    (rest : List Line) :
    (collect file current (l :: rest)).result =
      if l.label = [] then
        .error (.refused ⟨.malformed .unnamedGroup, some (l.location file)⟩)
      else
        (collect file (some ⟨String.ofList l.label, l.location file, l.calls file⟩) rest).result.map
          (current.toList ++ ·) := by
  have hcut := Line.cutAt_bare h
  have hne : l.bare ≠ [] := List.ne_nil_of_mem h
  rw [Line.bare] at hcut hne
  conv_lhs => unfold collect
  simp only [List.isEmpty_iff, if_neg hne, hcut]
  cases hlabel : l.label with
  | nil => rfl
  | cons c cs =>
    dsimp only
    rw [Build.result_bind, if_neg (by simp), Line.callsOf_callText]
    cases (collect file (some ⟨String.ofList (c :: cs), l.location file, _⟩) rest).result <;> rfl

/-- A line without a colon adds its calls to the open group. -/
theorem collect_calls_of_not_mem (file : String) (g : Group) (h : ':' ∉ l.bare)
    (rest : List Line) :
    collect file (some g) (l :: rest) =
      collect file (some { g with calls := g.calls ++ l.calls file }) rest := by
  by_cases hblank : l.bare = []
  · rw [collect_blank file _ hblank, Line.calls_of_bare_eq_nil file hblank, List.append_nil]
  · have hcut : cutAt ':' l.bare = none := cutAt_eq_none_iff.mpr h
    rw [← Line.callsOf_callText, Line.callText_of_not_mem h]
    rw [Line.bare] at hcut hblank ⊢
    conv_lhs => unfold collect
    simp only [List.isEmpty_iff, if_neg hblank, hcut]

/-- Without an open group there is none to add calls to. -/
theorem result_collect_unlabelled (file : String) (hblank : l.bare ≠ []) (h : ':' ∉ l.bare)
    (rest : List Line) :
    (collect file none (l :: rest)).result =
      .error (.refused ⟨.malformed .unlabelledCall, some (l.location file)⟩) := by
  have hcut : cutAt ':' l.bare = none := cutAt_eq_none_iff.mpr h
  rw [Line.bare] at hcut hblank
  conv_lhs => unfold collect
  simp only [List.isEmpty_iff, if_neg hblank, hcut]
  rfl

/-- A line with a colon is read if its label is not empty and the lines behind it are read. -/
theorem result_collect_colon_eq_ok_iff {file : String} {current : Option Group} {rest : List Line}
    (h : ':' ∈ l.bare) :
    (collect file current (l :: rest)).result = .ok groups ↔
      l.bare.head? ≠ some ':' ∧ ∃ others, groups = current.toList ++ others ∧
        (collect file (some ⟨String.ofList l.label, l.location file, l.calls file⟩) rest).result =
          .ok others := by
  rw [result_collect_colon file current h, ne_eq, ← Line.label_eq_nil_iff h]
  split
  · next hlabel => simp [hlabel]
  · next hlabel =>
    generalize (collect file _ rest).result = result
    cases result <;> simp [Except.map, hlabel, eq_comm]

/-- **Reading lines is cutting them into runs**, where the lines in front of the first run go to the
group that is open. -/
theorem result_collect_some (file : String) (g : Group) (lines : List Line) :
    (collect file (some g) lines).result = .ok groups ↔
      (∀ l ∈ lines, l.bare.head? ≠ some ':') ∧
        groups = { g with calls := g.calls ++ (Run.ofLines lines).1.flatMap (Line.calls file) } ::
          (Run.ofLines lines).2.map (Run.group file) := by
  induction lines generalizing g groups with
  | nil =>
    rw [result_collect_nil]
    simp [Run.ofLines, eq_comm]
  | cons l rest ih =>
    rw [List.forall_mem_cons]
    by_cases hcolon : ':' ∈ l.bare
    · rw [result_collect_colon_eq_ok_iff hcolon, Run.ofLines_cons_of_mem hcolon, and_assoc]
      refine and_congr_right fun _ => ?_
      simp only [ih, List.flatMap_nil, List.append_nil, List.map_cons]
      constructor
      · rintro ⟨_, rfl, hheads, rfl⟩
        exact ⟨hheads, rfl⟩
      · rintro ⟨hheads, rfl⟩
        exact ⟨_, rfl, hheads, rfl⟩
    · have hhead : l.bare.head? ≠ some ':' := fun h => hcolon (List.mem_of_mem_head? h)
      rw [collect_calls_of_not_mem file g hcolon, ih, Run.ofLines_cons_of_not_mem hcolon,
        and_iff_right hhead, List.flatMap_cons, List.append_assoc]

/-- Without an open group, the lines in front of the first run must be blank. -/
theorem result_collect_none (file : String) (lines : List Line) :
    (collect file none lines).result = .ok groups ↔
      (∀ l ∈ lines, l.bare.head? ≠ some ':') ∧ (∀ l ∈ (Run.ofLines lines).1, l.bare = []) ∧
        groups = (Run.ofLines lines).2.map (Run.group file) := by
  induction lines with
  | nil =>
    rw [result_collect_nil, Except.ok.injEq, eq_comm]
    simp [Run.ofLines]
  | cons l rest ih =>
    rw [List.forall_mem_cons]
    by_cases hblank : l.bare = []
    · have hcolon : ':' ∉ l.bare := by simp [hblank]
      rw [collect_blank file _ hblank, ih, Run.ofLines_cons_of_not_mem hcolon, List.forall_mem_cons]
      simp [hblank]
    · by_cases hcolon : ':' ∈ l.bare
      · rw [result_collect_colon_eq_ok_iff hcolon, Run.ofLines_cons_of_mem hcolon, and_assoc]
        refine and_congr_right fun _ => ?_
        simp only [result_collect_some, List.map_cons]
        constructor
        · rintro ⟨_, rfl, hheads, rfl⟩
          exact ⟨hheads, by simp, rfl⟩
        · rintro ⟨hheads, -, rfl⟩
          exact ⟨_, rfl, hheads, rfl⟩
      · rw [result_collect_unlabelled file hblank hcolon, Run.ofLines_cons_of_not_mem hcolon,
          List.forall_mem_cons]
        simp [hblank]

/-- Reading starts at the first line that is not blank, which must have a colon. -/
theorem exists_result_collect_none_iff (file : String) (lines : List Line) :
    (∃ groups, (collect file none lines).result = .ok groups) ↔
      (∀ l ∈ lines.find? (·.bare ≠ []), ':' ∈ l.bare) ∧ ∀ l ∈ lines, l.bare.head? ≠ some ':' := by
  have hfront : (∀ l ∈ (Run.ofLines lines).1, l.bare = []) ↔
      ∀ l ∈ lines.find? (·.bare ≠ []), ':' ∈ l.bare := by
    induction lines with
    | nil => simp [Run.ofLines]
    | cons l rest ih =>
      by_cases hblank : l.bare = []
      · have hcolon : ':' ∉ l.bare := by simp [hblank]
        rw [Run.ofLines_cons_of_not_mem hcolon, List.forall_mem_cons, ih]
        simp [hblank]
      · by_cases hcolon : ':' ∈ l.bare
        · simp [Run.ofLines_cons_of_mem hcolon, hblank, hcolon]
        · simp [Run.ofLines_cons_of_not_mem hcolon, hblank, hcolon]
  simp only [result_collect_none, hfront]
  constructor
  · rintro ⟨_, hheads, hfirst, -⟩
    exact ⟨hfirst, hheads⟩
  · rintro ⟨hfirst, hheads⟩
    exact ⟨_, hheads, hfirst, rfl⟩

end Group

/-! ### Blanks -/

namespace Text

variable {cs : List Char}

theorem dropBlanks_dropBlanks (cs : List Char) : dropBlanks (dropBlanks cs) = dropBlanks cs :=
  dropBlanks_eq_self fun c hc => by simpa using (List.mem_filter.mp hc).2

/-- A stripped text that is not empty does not only hold blanks. -/
theorem dropBlanks_eq_nil_iff (h : strip cs = cs) : dropBlanks cs = [] ↔ cs = [] := by
  constructor
  · intro hnil
    cases cs with
    | nil => rfl
    | cons c cs =>
      have hc : isBlank c = false := (h ▸ head?_strip (c :: cs)) c rfl
      simp [dropBlanks, hc] at hnil
  · rintro rfl
    rfl

end Text

namespace Line

variable {l : Line}

@[simp] theorem bare_withoutBlanks (l : Line) : l.withoutBlanks.bare = l.bare :=
  Text.dropBlanks_dropBlanks l.content

theorem isEmpty_withoutBlanks (h : Text.strip l.content = l.content) :
    l.withoutBlanks.isEmpty = l.isEmpty := by
  rw [isEmpty, isEmpty, Bool.eq_iff_iff, List.isEmpty_iff, List.isEmpty_iff]
  exact Text.dropBlanks_eq_nil_iff h

end Line

/-! ### The section -/

namespace Group

/-- Blanks in the lines of a pool do not matter. -/
theorem collect_withoutBlanks (file : String) (current : Option Group) (lines : List Line) :
    collect file current (lines.map Line.withoutBlanks) = collect file current lines := by
  induction lines generalizing current with
  | nil => rfl
  | cons l rest ih =>
    have htext : Text.dropBlanks l.withoutBlanks.content = Text.dropBlanks l.content :=
      l.bare_withoutBlanks
    have hlocation : l.withoutBlanks.location file = l.location file := rfl
    rw [List.map_cons]
    unfold collect
    simp only [htext, hlocation, ih]

end Group

namespace Pool

/-- Which line of a section is the declaration of the pool, and which lines remain: the header, or
if that is empty the first line that is not. -/
def Declares (header : Line) (body : List Line) (declaration : Line) (rest : List Line) : Prop :=
  (header.isEmpty = false ∧ declaration = header ∧ rest = body) ∨
    (header.isEmpty = true ∧ declaration.isEmpty = false ∧
      ∃ front, (∀ l ∈ front, l.isEmpty = true) ∧ body = front ++ declaration :: rest)

theorem splitDeclaration_eq_some_iff {header declaration : Line} {body rest : List Line} :
    splitDeclaration header body = some (declaration, rest) ↔
      Declares header body declaration rest := by
  rw [splitDeclaration, Declares]
  cases header.isEmpty with
  | false =>
    rw [if_neg Bool.false_ne_true, Option.some.injEq, Prod.mk.injEq]
    constructor
    · rintro ⟨rfl, rfl⟩
      exact .inl ⟨rfl, rfl, rfl⟩
    · rintro (⟨-, rfl, rfl⟩ | ⟨hempty, -⟩)
      · exact ⟨rfl, rfl⟩
      · cases hempty
  | true =>
    rw [if_pos rfl, or_iff_right (by simp), and_iff_right rfl, ← dropWhile_eq_cons_iff]
    cases body.dropWhile Line.isEmpty <;> simp

variable {file : String} {header : Line} {body : List Line} {pool : Pool}

/-- A section is read if its declaration and the remaining lines are. -/
theorem result_parse_eq_ok_iff :
    (parse file header body).result = .ok pool ↔
      ∃ declaration rest, Declares header body declaration rest ∧
        Region.ofContent? declaration.content = some pool.region ∧
        (Group.collect file none rest).result = .ok pool.groups := by
  simp only [← splitDeclaration_eq_some_iff]
  rw [parse]
  cases splitDeclaration header body with
  | none => simp
  | some split =>
    obtain ⟨declaration, rest⟩ := split
    simp only [Option.some.injEq, Prod.mk.injEq]
    constructor
    · intro h
      obtain ⟨region, hregion, h⟩ := Build.result_bind_eq_ok_iff.mp h
      obtain ⟨-, -, h⟩ := Build.result_bind_eq_ok_iff.mp h
      obtain ⟨groups, hgroups, h⟩ := Build.result_bind_eq_ok_iff.mp h
      obtain rfl := Except.ok.inj h
      exact ⟨declaration, rest, ⟨rfl, rfl⟩, Region.result_parse_eq_ok_iff.mp hregion, hgroups⟩
    · rintro ⟨_, _, ⟨rfl, rfl⟩, hregion, hgroups⟩
      refine Build.result_bind_eq_ok_iff.mpr
        ⟨pool.region, Region.result_parse_eq_ok_iff.mpr hregion, ?_⟩
      refine Build.result_bind_eq_ok_iff.mpr ⟨(), rfl, ?_⟩
      exact Build.result_bind_eq_ok_iff.mpr ⟨pool.groups, hgroups, rfl⟩

/-- The declaration of a section without blanks is that of the section, without blanks. -/
theorem splitDeclaration_withoutBlanks
    (hlines : ∀ l ∈ header :: body, Text.strip l.content = l.content) :
    splitDeclaration header.withoutBlanks (body.map Line.withoutBlanks) =
      (splitDeclaration header body).map fun split =>
        (split.1.withoutBlanks, split.2.map Line.withoutBlanks) := by
  rw [List.forall_mem_cons] at hlines
  have hbody : (body.map Line.withoutBlanks).dropWhile Line.isEmpty =
      (body.dropWhile Line.isEmpty).map Line.withoutBlanks := by
    replace hlines := hlines.2
    induction body with
    | nil => rfl
    | cons l body ih =>
      rw [List.forall_mem_cons] at hlines
      rw [List.map_cons, List.dropWhile_cons, List.dropWhile_cons,
        Line.isEmpty_withoutBlanks hlines.1, ih hlines.2]
      split <;> rfl
  rw [splitDeclaration, splitDeclaration, Line.isEmpty_withoutBlanks hlines.1, hbody]
  split
  · cases body.dropWhile Line.isEmpty <;> rfl
  · rfl

/-- **Blanks in a section do not matter.** -/
theorem parse_withoutBlanks (file : String)
    (hlines : ∀ l ∈ header :: body, Text.strip l.content = l.content) :
    parse file header.withoutBlanks (body.map Line.withoutBlanks) = parse file header body := by
  have hcontent : ∀ l : Line,
      Region.ofContent? l.withoutBlanks.content = Region.ofContent? l.content := by
    intro l
    have hbare : Text.dropBlanks l.withoutBlanks.content = Text.dropBlanks l.content :=
      l.bare_withoutBlanks
    rw [Region.ofContent?, Region.ofContent?, hbare]
  have hlocation : ∀ l : Line, l.withoutBlanks.location file = l.location file := fun _ => rfl
  rw [parse, parse, splitDeclaration_withoutBlanks hlines]
  cases splitDeclaration header body with
  | none => rfl
  | some split =>
    simp only [Option.map_some, Region.parse, hcontent, hlocation, Group.collect_withoutBlanks]

/-- **Grouping neither loses, doubles nor misplaces a call.** A section is read exactly if it has a
declaration that can be read, the first of the remaining lines that is not blank has a colon, and
none begins with one. The remaining lines are then blank lines followed by runs, and the pool has
one group for each run: its label and its place are those of the first line, and its calls are those
of all lines of the run, each on its own line. Blanks in stripped lines do not matter for any of
this. -/
theorem parse_groups (file : String) (header : Line) (body : List Line) :
    ((∃ pool, (parse file header body).result = .ok pool) ↔
      ∃ declaration rest region, Declares header body declaration rest ∧
        Region.ofContent? declaration.content = some region ∧
        (∀ l ∈ rest.find? (·.bare ≠ []), ':' ∈ l.bare) ∧ ∀ l ∈ rest, l.bare.head? ≠ some ':') ∧
    (∀ pool, (parse file header body).result = .ok pool →
      ∃ (declaration : Line) (front : List Line) (runs : List Run),
        Declares header body declaration (front ++ runs.flatMap Run.lines) ∧
        Region.ofContent? declaration.content = some pool.region ∧
        (∀ l ∈ front, l.bare = []) ∧ (∀ r ∈ runs, r.IsRun) ∧
        pool.groups = runs.map (Run.group file)) ∧
    ((∀ l ∈ header :: body, Text.strip l.content = l.content) →
      parse file header.withoutBlanks (body.map Line.withoutBlanks) = parse file header body) := by
  refine ⟨?_, ?_, parse_withoutBlanks file⟩
  · simp only [result_parse_eq_ok_iff]
    constructor
    · rintro ⟨pool, declaration, rest, hsplit, hregion, hgroups⟩
      exact ⟨declaration, rest, pool.region, hsplit, hregion,
        (Group.exists_result_collect_none_iff file rest).mp ⟨_, hgroups⟩⟩
    · rintro ⟨declaration, rest, region, hsplit, hregion, hlines⟩
      obtain ⟨groups, hgroups⟩ := (Group.exists_result_collect_none_iff file rest).mpr hlines
      exact ⟨⟨region, groups⟩, declaration, rest, hsplit, hregion, hgroups⟩
  · intro pool h
    obtain ⟨declaration, rest, hsplit, hregion, hgroups⟩ := result_parse_eq_ok_iff.mp h
    obtain ⟨-, hfront, hruns⟩ := (Group.result_collect_none file rest).mp hgroups
    refine ⟨declaration, (Run.ofLines rest).1, (Run.ofLines rest).2, ?_, hregion, hfront,
      Run.isRun_of_mem_ofLines rest, hruns⟩
    rwa [Run.append_ofLines]

/-- The lines behind a header that is empty: a blank line, the declaration, a group whose calls
stand on three lines and are separated more often than necessary, and a group with a colon in its
call. -/
def borrowedBody : List Line :=
  Line.numbered 4 (["", "= 100, 40", "L A: CallList(X);; PopMatrix(1)", "", "HexString(AB);",
    "B:C:D"].map String.toList)

/-- The groups of the section: calls behind blank lines keep the lines that they stand on, nothing
comes from the two semicolons in a row, and only the first colon of a line ends a label. -/
theorem parse_groups_borrowed :
    (∀ l ∈ ⟨[], 3⟩ :: borrowedBody, Text.strip l.content = l.content) ∧
      (parse "pool" ⟨[], 3⟩ borrowedBody).result = .ok ⟨⟨0x100, 0x40⟩, [
        ⟨"LA", ⟨"pool", 6⟩, [⟨"CallList(X)".toList, ⟨"pool", 6⟩⟩,
          ⟨"PopMatrix(1)".toList, ⟨"pool", 6⟩⟩, ⟨"HexString(AB)".toList, ⟨"pool", 8⟩⟩]⟩,
        ⟨"B", ⟨"pool", 9⟩, [⟨"C:D".toList, ⟨"pool", 9⟩⟩]⟩]⟩ ∧
      parse "pool" ⟨[], 3⟩ (borrowedBody.map Line.withoutBlanks) =
        parse "pool" ⟨[], 3⟩ borrowedBody := by
  obtain ⟨hread, hgroups, hblanks⟩ := parse_groups "pool" ⟨[], 3⟩ borrowedBody
  have hstrip : ∀ l ∈ ⟨[], 3⟩ :: borrowedBody, Text.strip l.content = l.content := by
    decide +kernel
  refine ⟨hstrip, ?_, hblanks hstrip⟩
  have hdeclares : Declares ⟨[], 3⟩ borrowedBody ⟨"= 100, 40".toList, 5⟩ (borrowedBody.drop 2) :=
    .inr ⟨rfl, rfl, [⟨[], 4⟩], by simp [Line.isEmpty], rfl⟩
  have hregion : Region.ofContent? "= 100, 40".toList = some ⟨0x100, 0x40⟩ := by decide +kernel
  obtain ⟨pool, hpool⟩ :=
    hread.mpr ⟨_, _, _, hdeclares, hregion, by decide +kernel, by decide +kernel⟩
  obtain ⟨declaration, front, runs, hsplit, hplace, hfront, hruns, hcalls⟩ := hgroups pool hpool
  -- There is one declaration, and one way to cut the other lines into runs.
  obtain ⟨rfl, hlines⟩ : ⟨"= 100, 40".toList, 5⟩ = declaration ∧
      borrowedBody.drop 2 = front ++ runs.flatMap Run.lines := by
    have hsame := (splitDeclaration_eq_some_iff.mpr hdeclares).symm.trans
      (splitDeclaration_eq_some_iff.mpr hsplit)
    exact Prod.mk.inj (Option.some.inj hsame)
  have hcut : Run.ofLines (borrowedBody.drop 2) = (front, runs) := by
    rw [hlines]
    exact Run.ofLines_append (fun l hl => by simp [hfront l hl]) hruns
  obtain ⟨region, groups⟩ := pool
  obtain rfl : ⟨0x100, 0x40⟩ = region := Option.some.inj (hregion.symm.trans hplace)
  obtain rfl : groups = (Run.ofLines (borrowedBody.drop 2)).2.map (Run.group "pool") := by
    rw [hcut]
    exact hcalls
  rw [hpool]
  decide +kernel

end Pool

end ModelPatch

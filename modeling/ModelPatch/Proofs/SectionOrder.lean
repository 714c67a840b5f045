import Mathlib
import ModelPatch.Proofs.LineLayout
import ModelPatch.Proofs.LineShift
import ModelPatch.Proofs.ManifestRoundTrip
import ModelPatch.Proofs.PatchRefusals

/-!
# The order of the sections

A section is found by its keyword, wherever it stands, and ends at the next line that says so. So
its place matters only for the numbers of its lines, provided that its keyword does not come up
before it: not in the lines in front of both sections, not in the lines between them, and not in the
other section. What stands behind both sections is not looked at.

A manifest is read in its two sections alone, and the two are read independently of each other. Each
of them has its own shift, and an error is shifted with the section that it is in.

## Main definitions

* `SectionText`: the lines of a section before they are cleaned;
* `SectionText.StandsBehind`: where a section stands in a text;
* `Line.IsNeutral`: a line that begins no section;
* `Manifest.ofSections`: the contents of a manifest, from its sections.

## Main results

* `SectionText.result_find`: a section is found where it stands;
* `Manifest.ofSections_shift`: what is read in shifted sections;
* `Manifest.sections_order`: the order of the sections does not matter.
-/

namespace ModelPatch

/-! ### Sections in a text -/

/-- The lines of a section before they are cleaned. -/
structure SectionText (keyword : String) where
  /-- The line with the keyword. -/
  start : List Char
  /-- The lines between the keyword and the end. -/
  body : List (List Char)
  /-- The line that ends the section. -/
  stop : List Char
  /-- The keyword stands at the front of its line. -/
  start_keyword : keyword.toList <+: Line.clean start
  /-- No line in between ends the section. -/
  body_ne_end : ∀ raw ∈ body, Line.clean raw ≠ "END".toList
  /-- The last line does. -/
  stop_eq_end : Line.clean stop = "END".toList

namespace SectionText

variable {keyword : String}

/-- The lines of a section. -/
def lines (s : SectionText keyword) : List (List Char) :=
  s.start :: (s.body ++ [s.stop])

/-- What a section is read as, if its first line has the number `first`. -/
def located (s : SectionText keyword) (first : Nat) : Section where
  header := ⟨Text.strip ((Line.clean s.start).drop keyword.length), first⟩
  body := Line.numbered (first + 1) (s.body.map Line.clean)

/-- A section stands behind the first `n` of some lines, none of which begins with its keyword. -/
def StandsBehind (s : SectionText keyword) (n : Nat) (raws : List (List Char)) : Prop :=
  ∃ before behind, before.length = n ∧ raws = before ++ (s.lines ++ behind) ∧
    ∀ raw ∈ before, ¬ keyword.toList <+: Line.clean raw

/-- **A section is found where it stands**, behind lines that do not begin with its keyword. -/
theorem result_find (s : SectionText keyword) {n : Nat} {raws : List (List Char)}
    (h : s.StandsBehind n raws) (file : String) :
    (Section.find file keyword (Line.numbered 1 (raws.map Line.clean))).result =
      .ok (s.located (1 + n)) := by
  obtain ⟨before, behind, rfl, rfl, hbefore⟩ := h
  obtain ⟨header, hheader⟩ := s.start_keyword
  have hlocated : s.located (1 + before.length) = ⟨⟨Text.strip header, (1 + before.length : Nat)⟩,
      Line.numbered (1 + before.length + 1) (s.body.map Line.clean)⟩ := by
    rw [located, ← hheader, ← String.length_toList, List.drop_left]
  have hfront : ∀ cs ∈ before.map Line.clean, ¬ keyword.toList <+: cs :=
    List.forall_mem_map.mpr hbefore
  have hbody : ∀ cs ∈ s.body.map Line.clean, cs ≠ "END".toList :=
    List.forall_mem_map.mpr s.body_ne_end
  rw [hlocated, List.map_append, Line.numbered_append, List.length_map, lines, List.cons_append,
    List.map_cons, Line.numbered_cons, List.append_assoc, List.singleton_append, List.map_append,
    Line.numbered_append, List.map_cons, Line.numbered_cons]
  exact Section.result_find (fun l hl => hfront _ (Line.content_mem_of_mem_numbered hl))
    hheader.symm (fun l hl => hbody _ (Line.content_mem_of_mem_numbered hl)) s.stop_eq_end file _

/-- A section stands behind the lines in front of it, if none of them begins with its keyword. -/
theorem standsBehind_append (s : SectionText keyword) {before : List (List Char)}
    (hbefore : ∀ raw ∈ before, ¬ keyword.toList <+: Line.clean raw) (behind : List (List Char)) :
    s.StandsBehind before.length (before ++ (s.lines ++ behind)) :=
  ⟨before, behind, rfl, rfl, hbefore⟩

/-- It stands behind other lines and another section too. -/
theorem standsBehind_other (s : SectionText keyword) {before other between : List (List Char)}
    (hbefore : ∀ raw ∈ before, ¬ keyword.toList <+: Line.clean raw)
    (hother : ∀ raw ∈ other, ¬ keyword.toList <+: Line.clean raw)
    (hbetween : ∀ raw ∈ between, ¬ keyword.toList <+: Line.clean raw)
    (behind : List (List Char)) :
    s.StandsBehind (before.length + other.length + between.length)
      (before ++ (other ++ (between ++ (s.lines ++ behind)))) := by
  refine ⟨before ++ other ++ between, behind, by simp [Nat.add_assoc], by simp, ?_⟩
  simp only [List.forall_mem_append]
  exact ⟨⟨hbefore, hother⟩, hbetween⟩

end SectionText

/-- A line that begins neither section. -/
def Line.IsNeutral (raw : List Char) : Prop :=
  ¬ Section.dictionaryKeyword.toList <+: clean raw ∧ ¬ Section.poolKeyword.toList <+: clean raw

instance (raw : List Char) : Decidable (Line.IsNeutral raw) :=
  inferInstanceAs (Decidable (_ ∧ _))

/-- Lines with other numbers are shifted lines. -/
theorem Line.numbered_eq_map_shift {first first' : Nat} {k : Int} (h : (first' : Int) = first + k)
    (texts : List (List Char)) : numbered first' texts = (numbered first texts).map (shift k) := by
  induction texts generalizing first first' with
  | nil => rfl
  | cons cs texts ih =>
    have hnext : ((first' + 1 : Nat) : Int) = (first + 1 : Nat) + k := by omega
    rw [numbered_cons, numbered_cons, List.map_cons, ih hnext, shift, h]

/-- A section that stands elsewhere is a shifted section. -/
theorem SectionText.located_eq_shift {keyword : String} (s : SectionText keyword)
    {first first' : Nat} {k : Int} (h : (first' : Int) = first + k) :
    s.located first' = (s.located first).shift k := by
  have hnext : ((first' + 1 : Nat) : Int) = (first + 1 : Nat) + k := by omega
  rw [located, located, Section.shift, Line.shift, Line.numbered_eq_map_shift hnext, h]

namespace Manifest

/-! ### Manifests from their sections -/

/-- The contents of a manifest, from its sections. -/
def ofSections (file : String) (names calls : Section) : Build Manifest := do
  let dictionary ← Dictionary.parse file (dictionaryLines names)
  let pool ← Pool.parse file calls.header calls.body
  return ⟨file, dictionary, pool⟩

variable {file : String} {lines : List Line} {names calls : Section}

/-- A manifest with both sections is read in these alone. -/
theorem result_ofLines
    (hnames : (Section.find file Section.dictionaryKeyword lines).result = .ok names)
    (hcalls : (Section.find file Section.poolKeyword lines).result = .ok calls) :
    (ofLines file lines).result = (ofSections file names calls).result := by
  simp only [ofLines, ofSections, Build.result_bind, hnames, hcalls, Build.result_note]
  rfl

theorem dictionaryLines_shift (k : Int) (names : Section) :
    dictionaryLines (names.shift k) = (dictionaryLines names).map (Line.shift k) := by
  have hempty : (names.shift k).header.isEmpty = names.header.isEmpty := rfl
  rw [dictionaryLines, dictionaryLines, hempty]
  split <;> rfl

/-- **What is read in shifted sections.** The dictionary is the same, and the pool is shifted with
its section; or the error is the same and shifted with the section that it is in. -/
theorem ofSections_shift (file : String) (names calls : Section) :
    (∃ m, (ofSections file names calls).result = .ok m ∧
      ∀ j k, (ofSections file (names.shift j) (calls.shift k)).result =
        .ok { m with pool := m.pool.shift k }) ∨
    ∃ e, (ofSections file names calls).result = .error (.refused e) ∧
      ((∀ j k, (ofSections file (names.shift j) (calls.shift k)).result =
          .error (.refused (e.shift j))) ∨
        ∀ j k, (ofSections file (names.shift j) (calls.shift k)).result =
          .error (.refused (e.shift k))) := by
  have hnames : ∀ j, (Dictionary.parse file (dictionaryLines names)).ShiftsTo j id
      (Dictionary.parse file (dictionaryLines (names.shift j))) := by
    intro j
    rw [dictionaryLines_shift]
    exact Dictionary.shiftsTo_parse j file _
  have hcalls : ∀ k, (Pool.parse file calls.header calls.body).ShiftsTo k (Pool.shift k)
      (Pool.parse file (calls.shift k).header (calls.shift k).body) :=
    fun k => Pool.shiftsTo_parse k file _ _
  simp only [Build.ShiftsTo] at hnames hcalls
  simp only [ofSections, Build.result_bind, Build.result_pure]
  -- The dictionary is read first, so an error in it is reported even if there is one in the pool.
  cases hdictionary : (Dictionary.parse file (dictionaryLines names)).result with
  | error fault =>
    obtain ⟨cause, location, rfl, -⟩ := Dictionary.failsOnly_parse file _ fault hdictionary
    simp only [hdictionary] at hnames
    refine .inr ⟨⟨cause, location⟩, rfl, .inl fun j k => ?_⟩
    rw [hnames]
    rfl
  | ok dictionary =>
    simp only [hdictionary] at hnames
    cases hpool : (Pool.parse file calls.header calls.body).result with
    | error fault =>
      obtain ⟨cause, location, rfl, -⟩ := Pool.failsOnly_parse file _ _ fault hpool
      simp only [hpool] at hcalls
      refine .inr ⟨⟨cause, location⟩, rfl, .inr fun j k => ?_⟩
      rw [hnames, hcalls]
      rfl
    | ok pool =>
      simp only [hpool] at hcalls
      refine .inl ⟨⟨file, dictionary, pool⟩, rfl, fun j k => ?_⟩
      rw [hnames, hcalls]
      rfl

/-! ### Arrangements -/

variable {D : SectionText Section.dictionaryKeyword} {P : SectionText Section.poolKeyword}
  {raws : List (List Char)} {m n : Nat} {source : Source}

/-- A text with both sections is read in these alone, each where it stands. -/
theorem result_parse (hsource : source.decode = ['\n'].intercalate raws)
    (hfree : ∀ raw ∈ raws, '\n' ∉ raw) (hD : D.StandsBehind m raws) (hP : P.StandsBehind n raws)
    (file : String) :
    (parse file source).result =
      (ofSections file (D.located (1 + m)) (P.located (1 + n))).result := by
  have hne : raws ≠ [] := by
    obtain ⟨before, behind, -, rfl, -⟩ := hD
    simp [SectionText.lines]
  rw [parse, hsource, Line.ofText_intercalate hne hfree]
  exact result_ofLines (D.result_find hD file) (P.result_find hP file)

/-- The same, in terms of the dictionary on its own and the pool right behind it. -/
theorem result_parse_shifted {j k : Int} (hsource : source.decode = ['\n'].intercalate raws)
    (hfree : ∀ raw ∈ raws, '\n' ∉ raw) (hD : D.StandsBehind m raws) (hP : P.StandsBehind n raws)
    (hj : (m : Int) = j) (hk : (n : Int) = D.lines.length + k) (file : String) :
    (parse file source).result =
      (ofSections file ((D.located 1).shift j)
        ((P.located (1 + D.lines.length)).shift k)).result := by
  have hfirstD : ((1 + m : Nat) : Int) = (1 : Nat) + j := by omega
  have hfirstP : ((1 + n : Nat) : Int) = (1 + D.lines.length : Nat) + k := by omega
  rw [result_parse hsource hfree hD hP file, D.located_eq_shift hfirstD,
    P.located_eq_shift hfirstP]

/-- **The order of the sections does not matter**, and neither does what stands around them. Lines
that begin no section may stand in front of both sections and between them, and any lines behind
them. Then the two orders give the dictionary and the pool that the bare sections give, up to the
line numbers of the pool, or they give the error of the bare sections, up to its line number. -/
theorem sections_order {A B C : List (List Char)} (hA : ∀ raw ∈ A, Line.IsNeutral raw)
    (hB : ∀ raw ∈ B, Line.IsNeutral raw)
    (hD : ∀ raw ∈ D.lines, ¬ Section.poolKeyword.toList <+: Line.clean raw)
    (hP : ∀ raw ∈ P.lines, ¬ Section.dictionaryKeyword.toList <+: Line.clean raw)
    (hfree : ∀ raw ∈ A ++ (D.lines ++ (B ++ (P.lines ++ C))), '\n' ∉ raw)
    {bare straight swapped : Source}
    (hbare : bare.decode = ['\n'].intercalate (D.lines ++ P.lines))
    (hstraight : straight.decode = ['\n'].intercalate (A ++ (D.lines ++ (B ++ (P.lines ++ C)))))
    (hswapped : swapped.decode = ['\n'].intercalate (A ++ (P.lines ++ (B ++ (D.lines ++ C)))))
    (file : String) :
    (∃ m, (parse file bare).result = .ok m ∧
      (parse file straight).result = .ok { m with pool := m.pool.shift (A.length + B.length) } ∧
      (parse file swapped).result =
        .ok { m with pool := m.pool.shift (A.length - D.lines.length) }) ∨
    ∃ e j k, (parse file bare).result = .error (.refused e) ∧
      (parse file straight).result = .error (.refused (e.shift j)) ∧
      (parse file swapped).result = .error (.refused (e.shift k)) ∧
      (j = A.length ∧ k = A.length + P.lines.length + B.length ∨
        j = A.length + B.length ∧ k = A.length - D.lines.length) := by
  have hpieces := hfree
  simp only [List.forall_mem_append] at hpieces
  obtain ⟨hfreeA, hfreeD, hfreeB, hfreeP, hfreeC⟩ := hpieces
  have hnamesA : ∀ raw ∈ A, ¬ Section.dictionaryKeyword.toList <+: Line.clean raw :=
    fun raw hraw => (hA raw hraw).1
  have hcallsA : ∀ raw ∈ A, ¬ Section.poolKeyword.toList <+: Line.clean raw :=
    fun raw hraw => (hA raw hraw).2
  have hatBare : (parse file bare).result =
      (ofSections file (D.located 1) (P.located (1 + D.lines.length))).result := by
    have hstandsD : D.StandsBehind 0 (D.lines ++ P.lines) := ⟨[], P.lines, rfl, rfl, by simp⟩
    have hstandsP := P.standsBehind_append hD []
    rw [List.append_nil] at hstandsP
    exact result_parse hbare (List.forall_mem_append.mpr ⟨hfreeD, hfreeP⟩) hstandsD hstandsP file
  have hatStraight : (parse file straight).result =
      (ofSections file ((D.located 1).shift A.length)
        ((P.located (1 + D.lines.length)).shift (A.length + B.length))).result :=
    result_parse_shifted hstraight hfree (D.standsBehind_append hnamesA _)
      (P.standsBehind_other hcallsA hD (fun raw hraw => (hB raw hraw).2) C) rfl (by omega) file
  have hatSwapped : (parse file swapped).result =
      (ofSections file ((D.located 1).shift (A.length + P.lines.length + B.length))
        ((P.located (1 + D.lines.length)).shift (A.length - D.lines.length))).result := by
    have hfreeSwapped : ∀ raw ∈ A ++ (P.lines ++ (B ++ (D.lines ++ C))), '\n' ∉ raw := by
      simp only [List.forall_mem_append]
      exact ⟨hfreeA, hfreeP, hfreeB, hfreeD, hfreeC⟩
    exact result_parse_shifted hswapped hfreeSwapped
      (D.standsBehind_other hnamesA hP (fun raw hraw => (hB raw hraw).1) C)
      (P.standsBehind_append hcallsA _) (by omega) (by omega) file
  rcases ofSections_shift file (D.located 1) (P.located (1 + D.lines.length)) with
    ⟨m, hm, hshift⟩ | ⟨e, he, hshift | hshift⟩
  · exact .inl ⟨m, hatBare.trans hm, hatStraight.trans (hshift _ _), hatSwapped.trans (hshift _ _)⟩
  · exact .inr ⟨e, _, _, hatBare.trans he, hatStraight.trans (hshift _ _),
      hatSwapped.trans (hshift _ _), .inl ⟨rfl, rfl⟩⟩
  · exact .inr ⟨e, _, _, hatBare.trans he, hatStraight.trans (hshift _ _),
      hatSwapped.trans (hshift _ _), .inr ⟨rfl, rfl⟩⟩

/-- A dictionary in which a name is the keyword of the section. -/
def plainNames : SectionText Section.dictionaryKeyword where
  start := "DICTIONARY // of two".toList
  body := ["LUT 10".toList, "DICTIONARY 20".toList]
  stop := "\tEND".toList
  start_keyword := by decide
  body_ne_end := by decide
  stop_eq_end := by decide

/-- A pool that is declared behind its keyword line. -/
def plainCalls : SectionText Section.poolKeyword where
  start := "OBJECT POOL".toList
  body := ["=54,25".toList, "A:CallList(LUT)".toList]
  stop := "END".toList
  start_keyword := by decide
  body_ne_end := by decide
  stop_eq_end := by decide

/-- Lines that begin no section, though some look as if they ended one or began one. -/
def strayLines : List (List Char) :=
  ["END".toList, "// OBJECT POOL".toList, "LUT DICTIONARY".toList]

/-- What is read in the two sections. -/
def plainManifest : Manifest where
  file := "plain"
  dictionary := ⟨⟨[("LUT", 0x10), ("DICTIONARY", 0x20)], by decide⟩, .empty⟩
  pool := ⟨⟨0x54, 0x25⟩, [⟨"A", ⟨"plain", 7⟩, [⟨"CallList(LUT)".toList, ⟨"plain", 7⟩⟩]⟩]⟩

/-- Lines as the text of a manifest. -/
def Source.joined (raws : List (List Char)) : Source :=
  .text (['\n'].intercalate raws)

/-- With stray lines around the sections and the pool in front, the label of its group stands one
line further up. -/
theorem sections_order_plain :
    (∀ raw ∈ strayLines, Line.IsNeutral raw) ∧
      (parse "plain" (.joined (strayLines ++ (plainCalls.lines ++ (strayLines ++
        (plainNames.lines ++ ["DICTIONARY".toList])))))).result =
          .ok { plainManifest with pool := plainManifest.pool.shift (-1) } := by
  have hstray : ∀ raw ∈ strayLines, Line.IsNeutral raw := by decide
  have hnames : ∀ raw ∈ plainNames.lines, ¬ Section.poolKeyword.toList <+: Line.clean raw := by
    decide
  have hcalls : ∀ raw ∈ plainCalls.lines,
      ¬ Section.dictionaryKeyword.toList <+: Line.clean raw := by
    decide
  have hfree : ∀ raw ∈ strayLines ++ (plainNames.lines ++ (strayLines ++
      (plainCalls.lines ++ ["DICTIONARY".toList]))), '\n' ∉ raw := by
    decide
  have hdecode : ∀ raws, (Source.joined raws).decode = ['\n'].intercalate raws := fun _ => rfl
  have hparse : (parse "plain" (.joined (plainNames.lines ++ plainCalls.lines))).result =
      .ok plainManifest := by
    decide +kernel
  refine ⟨hstray, ?_⟩
  rcases sections_order hstray hstray hnames hcalls hfree (hdecode _) (hdecode _) (hdecode _)
    "plain" with ⟨m, hm, -, hswapped⟩ | ⟨e, j, k, he, -⟩
  · obtain rfl := Except.ok.inj (hparse.symm.trans hm)
    exact hswapped
  · cases hparse.symm.trans he

end Manifest

end ModelPatch

import Mathlib
import ModelPatch.Proofs.HexDigits
import ModelPatch.Proofs.LineLayout

/-!
# Which texts are numbers

The digits of a number in base sixteen may have blanks, a sign and the mark `0x` in front of them,
and blanks behind them. Single underscores may stand between them, and one behind the mark. With
ASCII in place of the digits and blanks of other scripts, the texts that are read are exactly these,
and each of them is read as the integer that it spells.

The grammar is put together in layers, from the digits outward, and a text is read from the outside
in. For each layer there is a lemma that the reader accepts what the grammar has there. No layer is
taken for another one: digits do not begin with a sign, and `x` is no digit, so no mark stands in
them.

## Main definitions

* `Text.Separates`: separators that stand one by one between other characters;
* `Numeral.IsHexPart`: the characters that a number is made of;
* `Numeral.SpellsGrouped`: digits with underscores between them;
* `Numeral.SpellsUnsigned`, `Numeral.SpellsSigned`: a mark and a sign in front of them;
* `Numeral.SpellsInteger`: blanks around all this.

## Main results

* `Text.nil_notMem_splitOn_iff`: which texts have no empty pieces;
* `Numeral.integer?_sixteen_eq_some_iff`: an integer is read from the texts that spell it;
* `Numeral.SpellsInteger.scores`: underscores stand between other characters in these texts;
* `Numeral.SpellsHex.integer?_eq`, `Numeral.SpellsHex.integer?_mark`: digits are read without and
  with a mark in front of them;
* `Numeral.isHexPart_of_integer?`: no separator stands in a number.
-/

namespace ModelPatch

/-! ### Empty pieces -/

namespace Text

variable {sep : Char} {cs : List Char}

theorem head?_splitOn_eq_some_nil_iff :
    (cs.splitOn sep).head? = some [] ↔ cs = [] ∨ cs.head? = some sep := by
  cases cs with
  | nil => simp
  | cons c cs =>
    obtain ⟨first, rest, hsplit⟩ := List.exists_cons_of_ne_nil (List.splitOn_ne_nil sep cs)
    by_cases hc : c = sep
    · simp [hc, splitOn_cons_self]
    · simp [hc, splitOn_cons_of_ne hc, hsplit]

theorem nil_mem_iff_head?_or_mem_tail {pieces : List (List Char)} :
    [] ∈ pieces ↔ pieces.head? = some [] ∨ [] ∈ pieces.tail := by
  cases pieces <;> simp [eq_comm]

/-- Behind the first piece, an empty piece is one behind the last separator or between two. -/
theorem nil_mem_tail_splitOn_iff :
    [] ∈ (cs.splitOn sep).tail ↔ cs.getLast? = some sep ∨ [sep, sep] <:+: cs := by
  induction cs with
  | nil => simp
  | cons c cs ih =>
    rw [List.infix_cons_iff, List.cons_prefix_cons, List.singleton_prefix_iff_head?_eq_some]
    by_cases hc : c = sep
    · -- The separator opens a new piece, so what was the first piece now counts as well.
      have hlast : (c :: cs).getLast? = some sep ↔ cs = [] ∨ cs.getLast? = some sep := by
        cases cs <;> simp [hc]
      rw [hlast, hc, splitOn_cons_self, List.tail_cons, nil_mem_iff_head?_or_mem_tail,
        head?_splitOn_eq_some_nil_iff, ih]
      tauto
    · have hlast : (c :: cs).getLast? = some sep ↔ cs.getLast? = some sep := by
        cases cs <;> simp [hc]
      have htail : ((c :: cs).splitOn sep).tail = (cs.splitOn sep).tail := by
        rw [splitOn_cons_of_ne hc]
        cases cs.splitOn sep <;> rfl
      rw [hlast, htail, ih]
      simp [Ne.symm hc]

/-- Every separator of a text stands between two other characters. -/
structure Separates (sep : Char) (cs : List Char) : Prop where
  /-- No separator stands at the beginning, -/
  head : cs.head? ≠ some sep
  /-- nor at the end, -/
  last : cs.getLast? ≠ some sep
  /-- and no two of them stand in a row. -/
  single : ¬ [sep, sep] <:+: cs

/-- The pieces of a text are not empty if every separator stands between two other characters. -/
theorem nil_notMem_splitOn_iff : [] ∉ cs.splitOn sep ↔ cs ≠ [] ∧ Separates sep cs := by
  rw [nil_mem_iff_head?_or_mem_tail, head?_splitOn_eq_some_nil_iff, nil_mem_tail_splitOn_iff]
  simp only [not_or]
  exact ⟨fun h => ⟨h.1.1, h.1.2, h.2.1, h.2.2⟩, fun h => ⟨⟨h.1, h.2.head⟩, h.2.last, h.2.single⟩⟩

theorem Separates.cons {c : Char} (h : Separates sep cs) (hc : c ≠ sep) :
    Separates sep (c :: cs) where
  head := by simpa using hc
  last := by
    cases cs with
    | nil => simpa using hc
    | cons d cs => simpa using h.last
  single := by
    rw [List.infix_cons_iff, List.cons_prefix_cons]
    rintro (⟨rfl, -⟩ | hin)
    · exact hc rfl
    · exact h.single hin

/-- A separator between a character and a text. -/
theorem Separates.cons_cons {c : Char} (h : Separates sep cs) (hne : cs ≠ []) (hc : c ≠ sep) :
    Separates sep (c :: sep :: cs) where
  head := by simpa using hc
  last := by
    obtain ⟨d, cs, rfl⟩ := List.exists_cons_of_ne_nil hne
    simpa using h.last
  single := by
    intro hin
    rcases List.infix_cons_iff.mp hin with hat | hin
    · exact hc (List.cons_prefix_cons.mp hat).1.symm
    rcases List.infix_cons_iff.mp hin with hat | hin
    · have hhead : [sep] <+: cs := (List.cons_prefix_cons.mp hat).2
      exact h.head (List.singleton_prefix_iff_head?_eq_some.mp hhead)
    · exact h.single hin

theorem Separates.append_left {front : List Char} (h : Separates sep cs) (hfront : sep ∉ front) :
    Separates sep (front ++ cs) := by
  induction front with
  | nil => exact h
  | cons c front ih =>
    rw [List.mem_cons, not_or] at hfront
    exact (ih hfront.2).cons (Ne.symm hfront.1)

theorem Separates.reverse (h : Separates sep cs) : Separates sep cs.reverse where
  head := by simpa using h.last
  last := by simpa using h.head
  single := fun hin => h.single (List.reverse_infix.mp hin)

theorem Separates.append_right {back : List Char} (h : Separates sep cs) (hback : sep ∉ back) :
    Separates sep (cs ++ back) := by
  have hreverse : Separates sep (back.reverse ++ cs.reverse) :=
    h.reverse.append_left (by simpa using hback)
  simpa using hreverse.reverse

end Text

/-! ### Digits -/

namespace Numeral

variable {n : Nat} {z : Int} {cs digits : List Char} {values : List Nat}

/-- The digits of `n` with single underscores between them. -/
structure SpellsGrouped (n : Nat) (cs : List Char) : Prop where
  /-- Without the underscores, they spell the number. -/
  digits : SpellsHex n (cs.filter (· ≠ '_'))
  /-- Every underscore stands between two digits. -/
  scores : Text.Separates '_' cs

theorem digits?_sixteen_eq_some_iff : digits? .sixteen cs = some values ↔
    [] ∉ cs.splitOn '_' ∧ (cs.filter (· ≠ '_')).mapM Base.sixteen.digit? = some values := by
  have hruns : ((cs.splitOn '_').all fun run => !run.isEmpty) = true ↔ [] ∉ cs.splitOn '_' := by
    simp only [List.all_eq_true, Bool.not_eq_true', List.isEmpty_eq_false_iff]
    exact ⟨fun h hnil => h [] hnil rfl, fun h run hrun hnil => h (hnil ▸ hrun)⟩
  rw [digits?, Option.ite_none_right_eq_some, hruns, Text.flatten_splitOn]

/-- **The digits of a number are read** if underscores stand only between them. -/
theorem natural?_sixteen_eq_some_iff : natural? .sixteen cs = some n ↔ SpellsGrouped n cs := by
  have hread : natural? .sixteen cs = some n ↔
      ∃ values, digits? .sixteen cs = some values ∧ ofDigits 16 values = n := by
    rw [natural?, Option.bind_eq_some_iff]
    simp [Base.digitLimit?, Base.value]
  simp only [hread, digits?_sixteen_eq_some_iff, Text.nil_notMem_splitOn_iff]
  constructor
  · rintro ⟨values, ⟨⟨hne, hscores⟩, hvalues⟩, hn⟩
    refine ⟨spellsHex_iff.mpr ⟨?_, values, hvalues, hn⟩, hscores⟩
    obtain ⟨c, cs, rfl⟩ := List.exists_cons_of_ne_nil hne
    have hc : c ≠ '_' := by simpa using hscores.head
    simp [hc]
  · rintro ⟨hdigits, hscores⟩
    obtain ⟨hne, values, hvalues, hn⟩ := spellsHex_iff.mp hdigits
    refine ⟨values, ⟨⟨?_, hscores⟩, hvalues⟩, hn⟩
    rintro rfl
    exact hne rfl

/-- Digits and underscores are all that such a text is made of. -/
theorem SpellsGrouped.exists_hexValue? (h : SpellsGrouped n cs) :
    ∀ c ∈ cs, c = '_' ∨ ∃ value, hexValue? c = some value := by
  intro c hc
  by_cases hscore : c = '_'
  · exact .inl hscore
  · exact .inr (h.digits.exists_hexValue? c (List.mem_filter.mpr ⟨hc, by simpa using hscore⟩))

/-- The first of them is a digit. -/
theorem SpellsGrouped.exists_cons (h : SpellsGrouped n cs) :
    ∃ c rest value, cs = c :: rest ∧ hexValue? c = some value := by
  cases cs with
  | nil => exact absurd rfl h.digits.ne_nil
  | cons c rest =>
    rcases h.exists_hexValue? c List.mem_cons_self with rfl | ⟨value, hvalue⟩
    · exact absurd rfl h.scores.head
    · exact ⟨c, rest, value, rfl, hvalue⟩

theorem SpellsGrouped.not_mem (h : SpellsGrouped n cs) {c : Char} (hc : hexValue? c = none)
    (hscore : c ≠ '_') : c ∉ cs := by
  intro hmem
  rcases h.exists_hexValue? c hmem with rfl | ⟨value, hvalue⟩
  · exact hscore rfl
  · simp [hc] at hvalue

/-! ### What numbers are made of -/

/-- A character that a number in base sixteen may be made of, besides blanks. -/
def IsHexPart (c : Char) : Prop :=
  (hexValue? c).isSome = true ∨ c ∈ ['_', '+', '-', 'x', 'X']

instance (c : Char) : Decidable (IsHexPart c) :=
  inferInstanceAs (Decidable (_ ∨ _))

/-! ### The mark -/

/-- What may stand in front of the digits. -/
inductive IsHexMark : List Char → Prop
  /-- Nothing. -/
  | absent : IsHexMark []
  /-- The mark of base sixteen. -/
  | plain {x : Char} (hx : x ∈ ['x', 'X']) : IsHexMark ['0', x]
  /-- The mark with an underscore behind it. -/
  | scored {x : Char} (hx : x ∈ ['x', 'X']) : IsHexMark ['0', x, '_']

/-- A number behind a mark that may be left out. -/
def SpellsUnsigned (n : Nat) (cs : List Char) : Prop :=
  ∃ mark body, cs = mark ++ body ∧ IsHexMark mark ∧ SpellsGrouped n body

/-- The letter of a mark is no digit and no underscore. -/
theorem of_mem_hexMark {x : Char} (hx : x ∈ ['x', 'X']) :
    hexValue? x = none ∧ x ≠ '_' ∧ isPlainBlank x = false := by
  rw [List.mem_pair] at hx
  rcases hx with rfl | rfl <;> decide

theorem IsHexMark.isHexPart {mark : List Char} (h : IsHexMark mark) : ∀ c ∈ mark, IsHexPart c := by
  have hzero : IsHexPart '0' := by decide
  have hscore : IsHexPart '_' := by decide
  have hletter : ∀ x ∈ ['x', 'X'], IsHexPart x := fun x hx =>
    .inr (by simp [List.mem_pair.mp hx])
  cases h with
  | absent => simp
  | plain hx => simpa [hzero] using hletter _ hx
  | scored hx => simpa [hzero, hscore] using hletter _ hx

/-- Only a mark is dropped. -/
theorem exists_dropHexMark (cs : List Char) :
    ∃ mark, IsHexMark mark ∧ cs = mark ++ dropHexMark cs := by
  fun_cases dropHexMark cs with
  | case1 cs => exact ⟨_, .scored (x := 'x') (by decide), rfl⟩
  | case2 cs => exact ⟨_, .scored (x := 'X') (by decide), rfl⟩
  | case3 cs => exact ⟨_, .plain (x := 'x') (by decide), rfl⟩
  | case4 cs => exact ⟨_, .plain (x := 'X') (by decide), rfl⟩
  | case5 => exact ⟨_, .absent, rfl⟩

theorem dropHexMark_eq_self (hsmall : 'x' ∉ cs) (hcapital : 'X' ∉ cs) : dropHexMark cs = cs := by
  fun_cases dropHexMark cs <;> simp_all

/-- No mark stands in the digits, and the underscore behind it is not one of theirs. -/
theorem SpellsGrouped.dropHexMark_append {mark : List Char} (h : SpellsGrouped n cs)
    (hmark : IsHexMark mark) : dropHexMark (mark ++ cs) = cs := by
  have hbody : dropHexMark cs = cs :=
    dropHexMark_eq_self (h.not_mem rfl (by decide)) (h.not_mem rfl (by decide))
  obtain ⟨c, rest, value, rfl, hvalue⟩ := h.exists_cons
  have hc : c ≠ '_' := (ascii_of_hexValue? hvalue).2.2
  cases hmark with
  | absent => exact hbody
  | plain hx => rcases List.mem_pair.mp hx with rfl | rfl <;> simp [dropHexMark, hc]
  | scored hx => rcases List.mem_pair.mp hx with rfl | rfl <;> rfl

theorem natural?_dropHexMark_eq_some_iff :
    natural? .sixteen (dropHexMark cs) = some n ↔ SpellsUnsigned n cs := by
  rw [natural?_sixteen_eq_some_iff]
  constructor
  · intro h
    obtain ⟨mark, hmark, hsplit⟩ := exists_dropHexMark cs
    exact ⟨mark, _, hsplit, hmark, h⟩
  · rintro ⟨mark, body, rfl, hmark, hbody⟩
    rwa [hbody.dropHexMark_append hmark]

theorem SpellsUnsigned.scores (h : SpellsUnsigned n cs) : Text.Separates '_' cs := by
  obtain ⟨mark, body, rfl, hmark, hbody⟩ := h
  cases hmark with
  | absent => exact hbody.scores
  | plain hx => exact (hbody.scores.cons (of_mem_hexMark hx).2.1).cons (by decide)
  | scored hx =>
    have hne : body ≠ [] := by
      rintro rfl
      exact hbody.digits.ne_nil rfl
    exact (hbody.scores.cons_cons hne (of_mem_hexMark hx).2.1).cons (by decide)

/-- The first character is a digit, that of the mark if there is one. -/
theorem SpellsUnsigned.exists_cons (h : SpellsUnsigned n cs) :
    ∃ c rest value, cs = c :: rest ∧ hexValue? c = some value := by
  obtain ⟨mark, body, rfl, hmark, hbody⟩ := h
  cases hmark with
  | absent => exact hbody.exists_cons
  | plain hx => exact ⟨'0', _, 0, rfl, rfl⟩
  | scored hx => exact ⟨'0', _, 0, rfl, rfl⟩

theorem SpellsUnsigned.isHexPart (h : SpellsUnsigned n cs) : ∀ c ∈ cs, IsHexPart c := by
  obtain ⟨mark, body, rfl, hmark, hbody⟩ := h
  intro c hc
  rcases List.mem_append.mp hc with hc | hc
  · exact hmark.isHexPart c hc
  · rcases hbody.exists_hexValue? c hc with rfl | ⟨value, hvalue⟩
    · decide
    · exact .inl (by simp [hvalue])

/-! ### The sign -/

/-- A number behind a sign that may be left out. -/
inductive SpellsSigned : Int → List Char → Prop
  /-- A number without a sign. -/
  | unsigned {n : Nat} {cs : List Char} (h : SpellsUnsigned n cs) : SpellsSigned n cs
  /-- A plus sign does not change it. -/
  | plus {n : Nat} {cs : List Char} (h : SpellsUnsigned n cs) : SpellsSigned n ('+' :: cs)
  /-- A minus sign stands also in front of zero. -/
  | minus {n : Nat} {cs : List Char} (h : SpellsUnsigned n cs) : SpellsSigned (-n) ('-' :: cs)

/-- A number does not begin with a sign of its own. -/
theorem SpellsUnsigned.splitSign_eq (h : SpellsUnsigned n cs) : splitSign cs = (false, cs) := by
  obtain ⟨c, rest, value, rfl, hvalue⟩ := h.exists_cons
  have hminus : c ≠ '-' := by
    rintro rfl
    cases hvalue
  have hplus : c ≠ '+' := by
    rintro rfl
    cases hvalue
  simp [splitSign, hminus, hplus]

/-- A sign counts once for the number behind it. -/
theorem exists_splitSign_iff :
    (∃ n : Nat, SpellsUnsigned n (splitSign cs).2 ∧
      (if (splitSign cs).1 then -(n : Int) else n) = z) ↔ SpellsSigned z cs := by
  constructor
  · rintro ⟨n, hn, rfl⟩
    fun_cases splitSign cs with
    | case1 cs => exact .minus hn
    | case2 cs => exact .plus hn
    | case3 =>
      have hsign : splitSign cs = (false, cs) := by simp [splitSign]
      rw [hsign] at hn
      exact .unsigned hn
  · intro h
    cases h with
    | unsigned h => exact ⟨_, by rwa [h.splitSign_eq], by rw [h.splitSign_eq]; rfl⟩
    | plus h => exact ⟨_, h, rfl⟩
    | minus h => exact ⟨_, h, rfl⟩

theorem SpellsSigned.scores (h : SpellsSigned z cs) : Text.Separates '_' cs := by
  cases h with
  | unsigned h => exact h.scores
  | plus h => exact h.scores.cons (by decide)
  | minus h => exact h.scores.cons (by decide)

theorem SpellsSigned.isHexPart (h : SpellsSigned z cs) : ∀ c ∈ cs, IsHexPart c := by
  cases h with
  | unsigned h => exact h.isHexPart
  | plus h => exact List.forall_mem_cons.mpr ⟨by decide, h.isHexPart⟩
  | minus h => exact List.forall_mem_cons.mpr ⟨by decide, h.isHexPart⟩

/-! ### Blanks -/

/-- An integer with blanks around it. -/
def SpellsInteger (z : Int) (text : List Char) : Prop :=
  ∃ before number behind, text = before ++ (number ++ behind) ∧
    (∀ c ∈ before ++ behind, isPlainBlank c = true) ∧ SpellsSigned z number

theorem ascii_of_isPlainBlank {c : Char} (h : isPlainBlank c = true) : c.toNat < 128 := by
  simp only [isPlainBlank, Bool.or_eq_true, Bool.and_eq_true, decide_eq_true_eq, beq_iff_eq] at h
  omega

theorem ascii_of_isHexPart {c : Char} (h : IsHexPart c) :
    c.toNat < 128 ∧ isPlainBlank c = false := by
  rcases h with hdigit | hmark
  · obtain ⟨value, hvalue⟩ := Option.isSome_iff_exists.mp hdigit
    exact ⟨(ascii_of_hexValue? hvalue).1, (ascii_of_hexValue? hvalue).2.1⟩
  · simp only [List.mem_cons, List.not_mem_nil, or_false] at hmark
    rcases hmark with rfl | rfl | rfl | rfl | rfl <;> decide

/-- Blanks are trimmed off, and no part of a number is. -/
theorem SpellsSigned.trim_eq {before number behind : List Char} (h : SpellsSigned z number)
    (hblank : ∀ c ∈ before ++ behind, isPlainBlank c = true) :
    Text.trim isPlainBlank (before ++ (number ++ behind)) = number := by
  have hclean : ∀ c ∈ number, isPlainBlank c = false := fun c hc =>
    (ascii_of_isHexPart (h.isHexPart c hc)).2
  rw [List.forall_mem_append] at hblank
  rw [Text.trim_front_append hblank.1, Text.trim_append_back hblank.2]
  exact Text.trim_eq_self (fun c hc => hclean c (List.mem_of_mem_head? hc))
    (fun c hc => hclean c (List.mem_of_mem_getLast? hc))

/-- **Integers are read from the texts that spell them**, in the digits and blanks of any script. -/
theorem integer?_sixteen_eq_some_iff :
    integer? .sixteen cs = some z ↔ SpellsInteger z (cs.map Text.plainNumberChar) := by
  have hread : integer? .sixteen cs = some z ↔ SpellsSigned z (Text.plainNumber cs) := by
    rw [← exists_splitSign_iff]
    simp only [integer?, ← natural?_dropHexMark_eq_some_iff, Option.map_eq_some_iff,
      Option.bind_eq_bind, Option.bind_eq_some_iff, Option.pure_def, Option.some.injEq,
      exists_exists_and_eq_and]
  rw [hread, Text.plainNumber]
  constructor
  · intro h
    obtain ⟨before, behind, hsplit, hblank⟩ :=
      Text.exists_trim isPlainBlank (cs.map Text.plainNumberChar)
    exact ⟨before, _, behind, hsplit, hblank, h⟩
  · rintro ⟨before, number, behind, hsplit, hblank, h⟩
    rwa [hsplit, h.trim_eq hblank]

/-- What spells an integer is in ASCII. -/
theorem SpellsInteger.map_plainNumberChar (h : SpellsInteger z cs) :
    cs.map Text.plainNumberChar = cs := by
  obtain ⟨before, number, behind, rfl, hblank, h⟩ := h
  refine Text.map_plainNumberChar_eq_self fun c hc => ?_
  simp only [List.mem_append] at hblank hc
  rcases hc with hc | hc | hc
  · exact ascii_of_isPlainBlank (hblank c (.inl hc))
  · exact (ascii_of_isHexPart (h.isHexPart c hc)).1
  · exact ascii_of_isPlainBlank (hblank c (.inr hc))

theorem SpellsInteger.scores (h : SpellsInteger z cs) : Text.Separates '_' cs := by
  obtain ⟨before, number, behind, rfl, hblank, h⟩ := h
  have hscore : '_' ∉ before ++ behind := by
    intro hmem
    exact absurd (hblank '_' hmem) (by decide)
  rw [List.mem_append, not_or] at hscore
  exact (h.scores.append_right hscore.2).append_left hscore.1

/-! ### Readings -/

theorem SpellsInteger.integer?_eq (h : SpellsInteger z cs) : integer? .sixteen cs = some z := by
  rw [integer?_sixteen_eq_some_iff, h.map_plainNumberChar]
  exact h

/-- Digits need no underscores. -/
theorem SpellsHex.grouped (h : SpellsHex n digits) : SpellsGrouped n digits := by
  have hscore : '_' ∉ digits := by
    intro hmem
    obtain ⟨value, hvalue⟩ := h.exists_hexValue? _ hmem
    exact (ascii_of_hexValue? hvalue).2.2 rfl
  have hfilter : digits.filter (· ≠ '_') = digits := by
    rw [List.filter_eq_self]
    intro c hc
    have hne : c ≠ '_' := fun heq => hscore (heq ▸ hc)
    simpa using hne
  have hnone : Text.Separates '_' [] := ⟨by simp, by simp, by simp⟩
  exact ⟨by rwa [hfilter], by simpa using hnone.append_left hscore⟩

/-- **Digits are read** as the number that they spell. -/
theorem SpellsHex.integer?_eq (h : SpellsHex n digits) :
    integer? .sixteen digits = some (n : Int) :=
  SpellsInteger.integer?_eq
    ⟨[], digits, [], by simp, by simp, .unsigned ⟨[], _, rfl, .absent, h.grouped⟩⟩

/-- **Digits behind `0x` are read** as the number that they spell. -/
theorem SpellsHex.integer?_mark (h : SpellsHex n digits) :
    integer? .sixteen ('0' :: 'x' :: digits) = some (n : Int) :=
  SpellsInteger.integer?_eq
    ⟨[], '0' :: 'x' :: digits, [], by simp, by simp,
      .unsigned ⟨['0', 'x'], _, rfl, .plain (by decide), h.grouped⟩⟩

/-- **A number is made of digits, underscores, a sign and a mark**, as far as its characters are in
ASCII and no blanks. -/
theorem isHexPart_of_integer? (h : integer? .sixteen cs = some z) {c : Char} (hc : c ∈ cs)
    (hascii : c.toNat < 128) (hblank : isPlainBlank c = false) : IsHexPart c := by
  obtain ⟨before, number, behind, hsplit, hends, hnumber⟩ := integer?_sixteen_eq_some_iff.mp h
  have hmem : c ∈ cs.map Text.plainNumberChar := List.mem_map.mpr ⟨c, hc, if_pos hascii⟩
  rw [hsplit] at hmem
  simp only [List.mem_append] at hmem hends
  rcases hmem with hbefore | hin | hbehind
  · simp [hends c (.inl hbefore)] at hblank
  · exact hnumber.isHexPart c hin
  · simp [hends c (.inr hbehind)] at hblank

end Numeral

end ModelPatch

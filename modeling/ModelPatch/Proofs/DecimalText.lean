import Mathlib
import ModelPatch.Bytes.Basic
import ModelPatch.Proofs.HexDigits

/-!
# Decimal text is read back

A count is written in base ten, without zeros in front, and behind a minus sign if it is below zero.
It is read as what it spells, unless it has more than 4300 digits.

## Main results

* `Numeral.natural?_toDigits`: the digits of a natural number are read back;
* `Numeral.integer?_toString`: so is an integer with its sign.
-/

namespace ModelPatch.Numeral

/-- What a decimal digit is taken for when a number is read, and what it is not. -/
structure ReadsAsDigit (c : Char) : Prop where
  /-- It has its value in base ten. -/
  digit : Base.ten.digit? c = some (c.toNat - 48)
  /-- It is in ASCII. -/
  ascii : c.toNat < 128
  /-- It is not a blank, -/
  blank : isPlainBlank c = false
  /-- nor a sign, -/
  plus : c ≠ '+'
  /-- of either sort, -/
  minus : c ≠ '-'
  /-- nor part of the mark of a hexadecimal number. -/
  mark : c.toLower ≠ 'x'

theorem readsAsDigit_of_isDigit {c : Char} (h : c.isDigit = true) : ReadsAsDigit c := by
  have hascii : c.toNat < 128 := by
    have hlast : c.val ≤ '9'.val := by simpa using (Bool.and_eq_true_iff.mp h).2
    exact Nat.lt_of_le_of_lt hlast (by decide)
  have hall : ∀ n < 128, (Char.ofNat n).isDigit = true →
      Base.ten.digit? (Char.ofNat n) = some ((Char.ofNat n).toNat - 48) ∧
        isPlainBlank (Char.ofNat n) = false ∧ Char.ofNat n ≠ '+' ∧ Char.ofNat n ≠ '-' ∧
        (Char.ofNat n).toLower ≠ 'x' := by
    decide
  have hc := hall c.toNat hascii
  rw [Char.ofNat_toNat] at hc
  obtain ⟨hdigit, hblank, hplus, hminus, hmark⟩ := hc h
  exact ⟨hdigit, hascii, hblank, hplus, hminus, hmark⟩

theorem readsAsDigit_of_mem_toDigits {n : Nat} {c : Char} (h : c ∈ Nat.toDigits 10 n) :
    ReadsAsDigit c :=
  readsAsDigit_of_isDigit (Nat.isDigit_of_mem_toDigits (by decide) (by decide) h)

theorem mapM_digit?_ten {cs : List Char} (h : ∀ c ∈ cs, ReadsAsDigit c) :
    cs.mapM Base.ten.digit? = some (cs.map fun c => c.toNat - 48) := by
  induction cs with
  | nil => rfl
  | cons c cs ih =>
    rw [List.mapM_cons, (h c List.mem_cons_self).digit,
      ih fun d hd => h d (List.mem_cons_of_mem c hd)]
    rfl

/-- **The digits of a number are read back**, if there are not too many. -/
theorem natural?_toDigits (n : Nat) :
    natural? .ten (Nat.toDigits 10 n) =
      if (Nat.toDigits 10 n).length ≤ 4300 then some n else none := by
  have hscore : '_' ∉ Nat.toDigits 10 n := Nat.underscore_not_in_toDigits
  have hdigits : digits? .ten (Nat.toDigits 10 n) =
      some ((Nat.toDigits 10 n).map fun c => c.toNat - 48) := by
    simp [digits?, List.splitOn_eq_singleton hscore, Nat.toDigits_ne_nil,
      mapM_digit?_ten fun c => readsAsDigit_of_mem_toDigits]
  have hvalue : ofDigits 10 ((Nat.toDigits 10 n).map fun c => c.toNat - 48) = n := by
    rw [ofDigits, List.foldl_map]
    simpa [Nat.ofDigitChars, Nat.mul_comm] using Nat.ofDigitChars_ten_toDigits (n := n)
  rw [natural?, hdigits, Option.bind_some, List.length_map]
  simp only [Base.digitLimit?, Base.value, hvalue, Option.all_some, decide_eq_true_eq]

/-! ### Signs -/

/-- The digits of the magnitude, behind a minus sign if the number is below zero. -/
theorem toList_toString (count : Int) :
    (toString count).toList =
      (if count < 0 then ['-'] else []) ++ Nat.toDigits 10 count.natAbs := by
  cases count with
  | ofNat n =>
    show (Nat.repr n).toList = _
    rw [Nat.repr_eq_ofList_toDigits, String.toList_ofList]
    rfl
  | negSucc n =>
    have hminus : "-".toList = ['-'] := rfl
    show ("-" ++ Nat.repr (n + 1)).toList = _
    rw [String.toList_append, hminus, Nat.repr_eq_ofList_toDigits, String.toList_ofList,
      if_pos (Int.negSucc_lt_zero n)]
    rfl

theorem splitSign_toString (count : Int) :
    splitSign (toString count).toList = (decide (count < 0), Nat.toDigits 10 count.natAbs) := by
  rw [toList_toString]
  by_cases hneg : count < 0
  · simp [hneg, splitSign]
  · obtain ⟨c, cs, hcs⟩ :=
      List.exists_cons_of_ne_nil (Nat.toDigits_ne_nil (n := count.natAbs) (b := 10))
    have hc : ReadsAsDigit c :=
      readsAsDigit_of_mem_toDigits (n := count.natAbs) (by rw [hcs]; exact List.mem_cons_self)
    rw [hcs]
    simp [hneg, splitSign, hc.plus, hc.minus]

theorem mem_toString {count : Int} {c : Char} (h : c ∈ (toString count).toList) :
    c = '-' ∨ ReadsAsDigit c := by
  rw [toList_toString] at h
  rcases List.mem_append.mp h with hsign | hdigit
  · split at hsign
    · exact .inl (List.mem_singleton.mp hsign)
    · cases hsign
  · exact .inr (readsAsDigit_of_mem_toDigits hdigit)

theorem plainNumber_toString (count : Int) :
    Text.plainNumber (toString count).toList = (toString count).toList := by
  refine Text.plainNumber_eq_self ?_
  intro c hc
  rcases mem_toString hc with rfl | hdigit
  · decide
  · exact ⟨hdigit.ascii, hdigit.blank⟩

/-- A decimal number is not taken for a hexadecimal one. -/
theorem mark_isPrefixOf_toString (count : Int) :
    "0x".toList.isPrefixOf ((toString count).toList.map Char.toLower) = false := by
  rw [← Bool.not_eq_true, List.isPrefixOf_iff_prefix]
  intro hprefix
  have hx : 'x' ∈ (toString count).toList.map Char.toLower := hprefix.subset (by decide)
  obtain ⟨c, hc, hlower⟩ := List.mem_map.mp hx
  rcases mem_toString hc with rfl | hdigit
  · revert hlower
    decide
  · exact hdigit.mark hlower

/-- **A decimal number is read back**, unless it has too many digits. -/
theorem integer?_toString (count : Int) :
    integer? .ten (toString count).toList =
      if (Nat.toDigits 10 count.natAbs).length ≤ 4300 then some count else none := by
  rw [integer?, plainNumber_toString, splitSign_toString]
  simp only [natural?_toDigits]
  by_cases hlength : (Nat.toDigits 10 count.natAbs).length ≤ 4300
  · rw [if_pos hlength, if_pos hlength]
    show some (if decide (count < 0) = true then -(count.natAbs : Int) else count.natAbs) = _
    congr 1
    by_cases hneg : count < 0
    · rw [if_pos (decide_eq_true hneg)]
      omega
    · rw [if_neg (by simpa using hneg)]
      omega
  · rw [if_neg hlength, if_neg hlength]
    rfl

/-- Numbers that fit in a word do not have too many digits. -/
theorem length_toDigits_le_of_lt {n : Nat} (h : n < Bytes.wordLimit) :
    (Nat.toDigits 10 n).length ≤ 4300 := by
  have hten : (Nat.toDigits 10 n).length ≤ 10 := by
    rw [Nat.length_toDigits_le_iff (by decide) (by decide)]
    exact h.trans (by decide)
  omega

end ModelPatch.Numeral

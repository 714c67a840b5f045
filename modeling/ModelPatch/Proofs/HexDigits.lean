import Mathlib
import ModelPatch.Numeral.Hex
import ModelPatch.Proofs.WordsAndLines

/-!
# Hexadecimal digits and what they spell

Digits are read in either case, and zeros may stand in front of them. So what is shown here is about
spellings. The digits that are written for a number are one of them. A text is compared with
capitals, because a digit has the value of its capital.

## Main definitions

* `Numeral.SpellsHex`: the digits of a number, of either case and with zeros in front.

## Main results

* `hexValue?_toUpper`, `hexDigit_of_hexValue?`: a digit has the value of its capital;
* `mapM_eq_some_iff`: a list is read item by item;
* `Numeral.spellsHex_iff`: digits spell the number that they make up, and no other one;
* `Numeral.spellsHex_digits`, `Numeral.spellsHex_toDigits`: the digits that are written for a number
  spell it, in capitals or in small letters.
-/

namespace ModelPatch

/-! ### Characters -/

/-- What holds of the characters of ASCII, one by one, holds of any character in that range. -/
theorem forall_ascii {p : Char → Prop} (h : ∀ n < 128, p (Char.ofNat n)) {c : Char}
    (hc : c.toNat < 128) : p c := by
  have hp := h c.toNat hc
  rwa [Char.ofNat_toNat] at hp

/-- A digit has the value of its capital. -/
theorem hexValue?_toUpper (c : Char) : hexValue? c.toUpper = hexValue? c := by
  by_cases hc : c.toNat < 128
  · exact forall_ascii (p := fun c => hexValue? c.toUpper = hexValue? c) (by decide) hc
  · -- Only letters of ASCII have another capital than themselves.
    have hsame : c.toUpper = c := by
      rw [Char.toUpper, dif_neg]
      intro hletter
      exact hc (Nat.lt_of_le_of_lt hletter.2 (by decide))
    rw [hsame]

/-- Digits are in ASCII, and they are neither blanks nor underscores. -/
theorem ascii_of_hexValue? {c : Char} {value : Nat} (h : hexValue? c = some value) :
    c.toNat < 128 ∧ isPlainBlank c = false ∧ c ≠ '_' := by
  have hascii : c.toNat < 128 := by
    rw [hexValue?] at h
    split at h
    · next hdigit => exact Nat.lt_of_le_of_lt hdigit.2 (by decide)
    split at h
    · next hsmall => exact Nat.lt_of_le_of_lt hsmall.2 (by decide)
    split at h
    · next hcapital => exact Nat.lt_of_le_of_lt hcapital.2 (by decide)
    · cases h
  have hclean : (hexValue? c).isSome → isPlainBlank c = false ∧ c ≠ '_' :=
    forall_ascii (p := fun c => (hexValue? c).isSome → isPlainBlank c = false ∧ c ≠ '_')
      (by decide) hascii
  exact ⟨hascii, hclean (by simp [h])⟩

theorem hexValue?_hexDigit {d : Nat} (h : d < 16) : hexValue? (hexDigit d) = some d := by
  have hall : ∀ d < 16, hexValue? (hexDigit d) = some d := by decide
  exact hall d h

theorem Base.digit?_sixteen {c : Char} {d : Nat} (h : d < 16) (hc : hexValue? c = some d) :
    Base.sixteen.digit? c = some d := by
  simp [Base.digit?, hc, Option.filter, Base.value, h]

/-- What is in ASCII stays as it is. -/
theorem Text.map_plainNumberChar_eq_self {cs : List Char} (h : ∀ c ∈ cs, c.toNat < 128) :
    cs.map plainNumberChar = cs := by
  refine (List.map_congr_left (g := id) fun c hc => ?_).trans (List.map_id _)
  exact if_pos (h c hc)

/-- A number in ASCII without blanks at its ends is left as it is. -/
theorem Text.plainNumber_eq_self {cs : List Char}
    (h : ∀ c ∈ cs, c.toNat < 128 ∧ isPlainBlank c = false) : plainNumber cs = cs := by
  rw [plainNumber, map_plainNumberChar_eq_self fun c hc => (h c hc).1]
  refine trim_eq_self ?_ ?_
  · intro c hc
    exact (h c (List.mem_of_head? hc)).2
  · intro c hc
    exact (h c (List.mem_of_getLast? hc)).2

theorem hexDigit_of_hexValue? {c : Char} {d : Nat} (h : hexValue? c = some d) :
    c.toUpper = hexDigit d ∧ d < 16 := by
  have hall : ∀ d ∈ hexValue? c, c.toUpper = hexDigit d ∧ d < 16 :=
    forall_ascii (p := fun c => ∀ d ∈ hexValue? c, c.toUpper = hexDigit d ∧ d < 16) (by decide)
      (ascii_of_hexValue? h).1
  exact hall d h

/-! ### Digits of a number -/

/-- A list is read if each of its items is. -/
theorem mapM_eq_some_iff {α β : Type} {f : α → Option β} {xs : List α} {ys : List β} :
    xs.mapM f = some ys ↔ List.Forall₂ (fun x y => f x = some y) xs ys := by
  induction xs generalizing ys with
  | nil => cases ys <;> simp
  | cons x xs ih =>
    simp only [List.mapM_cons, Option.bind_eq_bind, Option.bind_eq_some_iff, Option.pure_def,
      Option.some.injEq, ih]
    constructor
    · rintro ⟨y, hy, rest, hrest, rfl⟩
      exact .cons hy hrest
    · rintro (_ | ⟨hy, hrest⟩)
      exact ⟨_, hy, _, hrest, rfl⟩

theorem Numeral.ofDigits_append (base : Nat) (front back : List Nat) :
    ofDigits base (front ++ back) =
      ofDigits base front * base ^ back.length + ofDigits base back := by
  induction back using List.reverseRecOn with
  | nil => simp [ofDigits]
  | append_singleton back d ih =>
    have hconcat : ∀ values, ofDigits base (values ++ [d]) = ofDigits base values * base + d :=
      fun values => List.foldl_append ..
    rw [← List.append_assoc, hconcat, hconcat, ih, List.length_append, List.length_singleton]
    ring

namespace Hex

/-- Whatever holds of the sixteen digits holds of each digit that is written. -/
theorem forall_mem_digits {p : Char → Prop} (h : ∀ d < 16, p (hexDigit d)) (n : Nat) :
    ∀ c ∈ digits n, p c := by
  fun_induction digits n with
  | case1 n hn => simpa using h n hn
  | case2 n hn ih =>
    intro c hc
    rcases List.mem_append.mp hc with hc | hc
    · exact ih c hc
    · rw [List.mem_singleton.mp hc]
      exact h _ (Nat.mod_lt n (by decide))

theorem digits_ne_nil (n : Nat) : digits n ≠ [] := by
  rw [digits]
  split <;> simp

/-- The digits of a number spell it. -/
theorem ofDigits_digits (n : Nat) : ∃ values,
    (digits n).mapM Base.sixteen.digit? = some values ∧ Numeral.ofDigits 16 values = n := by
  have hread : ∀ d < 16, Base.sixteen.digit? (hexDigit d) = some d := by
    intro d hd
    exact Base.digit?_sixteen hd (hexValue?_hexDigit hd)
  fun_induction digits n with
  | case1 n hn => exact ⟨[n], by simp [hread n hn], by simp [Numeral.ofDigits]⟩
  | case2 n hn ih =>
    obtain ⟨values, hvalues, hn'⟩ := ih
    refine ⟨values ++ [n % 16], ?_, ?_⟩
    · simp [hvalues, hread (n % 16) (Nat.mod_lt n (by decide))]
    · rw [Numeral.ofDigits_append, hn']
      show n / 16 * 16 ^ 1 + (0 * 16 + n % 16) = n
      omega

theorem digits_concat {n d : Nat} (hn : 0 < n) (hd : d < 16) :
    digits (n * 16 + d) = digits n ++ [hexDigit d] := by
  have hdiv : (n * 16 + d) / 16 = n := by omega
  have hmod : (n * 16 + d) % 16 = d := by omega
  rw [digits, if_neg (by omega), hdiv, hmod]

end Hex

/-! ### Spellings -/

namespace Numeral

variable {n : Nat} {digits : List Char} {values : List Nat}

/-- The digits of `n` in base sixteen, of either case and with any number of zeros in front. -/
def SpellsHex (n : Nat) (digits : List Char) : Prop :=
  ∃ zeros, digits.map Char.toUpper = List.replicate zeros '0' ++ Hex.digits n

theorem spellsHex_digits (n : Nat) : SpellsHex n (Hex.digits n) := by
  have hcapital : ∀ c ∈ Hex.digits n, c.toUpper = c := Hex.forall_mem_digits (by decide) n
  exact ⟨0, (List.map_congr_left (g := id) hcapital).trans (List.map_id _)⟩

theorem SpellsHex.ne_nil (h : SpellsHex n digits) : digits ≠ [] := by
  rintro rfl
  obtain ⟨zeros, hcapitals⟩ := h
  exact Hex.digits_ne_nil n (List.append_eq_nil_iff.mp hcapitals.symm).2

/-- A spelling consists of digits. -/
theorem SpellsHex.exists_hexValue? (h : SpellsHex n digits) :
    ∀ c ∈ digits, ∃ value, hexValue? c = some value := by
  obtain ⟨zeros, hcapitals⟩ := h
  have hwritten : ∀ c ∈ Hex.digits n, ∃ value, hexValue? c = some value :=
    Hex.forall_mem_digits (fun d hd => ⟨d, hexValue?_hexDigit hd⟩) n
  intro c hc
  have hmem : c.toUpper ∈ List.replicate zeros '0' ++ Hex.digits n :=
    hcapitals ▸ List.mem_map_of_mem hc
  rw [← hexValue?_toUpper]
  rcases List.mem_append.mp hmem with hzero | hdigit
  · exact ⟨0, by rw [(List.mem_replicate.mp hzero).2]; rfl⟩
  · exact hwritten _ hdigit

theorem ofDigits_replicate_zero (base zeros : Nat) (values : List Nat) :
    ofDigits base (List.replicate zeros 0 ++ values) = ofDigits base values := by
  have hzeros : ofDigits base (List.replicate zeros 0) = 0 := by
    induction zeros with
    | zero => rfl
    | succ zeros ih =>
      rw [List.replicate_succ', ofDigits_append, ih]
      simp [ofDigits]
  rw [ofDigits_append, hzeros, Nat.zero_mul, Nat.zero_add]

/-- Zeros in front do not count, and neither does the case of the digits. -/
theorem SpellsHex.ofDigits (h : SpellsHex n digits) : ∃ values,
    digits.mapM Base.sixteen.digit? = some values ∧ Numeral.ofDigits 16 values = n := by
  obtain ⟨zeros, hcapitals⟩ := h
  obtain ⟨values, hvalues, hn⟩ := Hex.ofDigits_digits n
  have hcase : Base.sixteen.digit? ∘ Char.toUpper = Base.sixteen.digit? := by
    funext c
    simp only [Function.comp_apply, Base.digit?, hexValue?_toUpper]
  have hzeros : ∀ zeros, (List.replicate zeros '0').mapM Base.sixteen.digit? =
      some (List.replicate zeros 0) := by
    have hzero : Base.sixteen.digit? '0' = some 0 := rfl
    intro zeros
    induction zeros with
    | zero => rfl
    | succ zeros ih => simp [List.replicate_succ, hzero, ih]
  refine ⟨List.replicate zeros 0 ++ values, ?_, ?_⟩
  · rw [← hcase, ← List.mapM_map, hcapitals, List.mapM_append, hzeros, hvalues]
    rfl
  · rw [ofDigits_replicate_zero, hn]

theorem spellsHex_singleton {c : Char} {d : Nat} (h : hexValue? c = some d) : SpellsHex d [c] := by
  obtain ⟨hupper, hd⟩ := hexDigit_of_hexValue? h
  refine ⟨0, ?_⟩
  rw [Hex.digits, if_pos hd, List.map_singleton, hupper]
  rfl

/-- A digit behind a number. -/
theorem SpellsHex.concat {c : Char} {d : Nat} (h : SpellsHex n digits) (hc : hexValue? c = some d) :
    SpellsHex (n * 16 + d) (digits ++ [c]) := by
  obtain ⟨hupper, hd⟩ := hexDigit_of_hexValue? hc
  obtain ⟨zeros, hdigits⟩ := h
  rw [SpellsHex, List.map_append, hdigits, List.map_singleton, hupper]
  rcases Nat.eq_zero_or_pos n with rfl | hn
  · -- The digit of zero becomes one of the zeros in front.
    refine ⟨zeros + 1, ?_⟩
    have hzero : Hex.digits 0 = ['0'] := by
      rw [Hex.digits]
      rfl
    rw [hzero, Nat.zero_mul, Nat.zero_add, Hex.digits.eq_def d, if_pos hd, List.replicate_succ']
  · exact ⟨zeros, by rw [Hex.digits_concat hn hd, List.append_assoc]⟩

/-- Digits spell the number that they make up. -/
theorem spellsHex_of_mapM (hne : digits ≠ [])
    (h : digits.mapM Base.sixteen.digit? = some values) :
    SpellsHex (Numeral.ofDigits 16 values) digits := by
  induction digits using List.reverseRecOn generalizing values with
  | nil => exact absurd rfl hne
  | append_singleton digits c ih =>
    simp only [List.mapM_append, List.mapM_cons, List.mapM_nil, Option.bind_eq_bind,
      Option.bind_eq_some_iff, Option.pure_def, Option.some.injEq] at h
    obtain ⟨front, hfront, -, ⟨d, hd, -, rfl, rfl⟩, rfl⟩ := h
    have hc : hexValue? c = some d := (Option.filter_eq_some_iff.mp hd).1
    rcases List.eq_nil_or_concat' digits with rfl | ⟨_, _, hdigits⟩
    · obtain rfl : front = [] := by simpa [eq_comm] using hfront
      simpa [Numeral.ofDigits] using spellsHex_singleton hc
    · have hspells := (ih (by simp [hdigits]) hfront).concat hc
      rw [ofDigits_append]
      simpa [Numeral.ofDigits] using hspells

/-- **Digits spell the number that they make up**, and no other one. -/
theorem spellsHex_iff : SpellsHex n digits ↔ digits ≠ [] ∧ ∃ values,
    digits.mapM Base.sixteen.digit? = some values ∧ Numeral.ofDigits 16 values = n := by
  constructor
  · intro h
    exact ⟨h.ne_nil, h.ofDigits⟩
  · rintro ⟨hne, values, hvalues, rfl⟩
    exact spellsHex_of_mapM hne hvalues

/-- The digits of a number in small letters spell it. -/
theorem spellsHex_toDigits (n : Nat) : SpellsHex n (Nat.toDigits 16 n) := by
  have hread : ∀ d < 16, hexValue? d.digitChar = some d := by decide
  induction n using Nat.strong_induction_on with
  | _ n ih =>
    by_cases hn : n < 16
    · rw [Nat.toDigits_of_lt_base hn]
      exact spellsHex_singleton (hread n hn)
    · have hmod : n % 16 < 16 := Nat.mod_lt n (by decide)
      have hspells := (ih (n / 16) (by omega)).concat (hread _ hmod)
      rw [Nat.div_add_mod'] at hspells
      rwa [Nat.toDigits_of_base_le (by decide) (by omega)]

end Numeral

end ModelPatch

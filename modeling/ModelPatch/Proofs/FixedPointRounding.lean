import Mathlib
import ModelPatch.Proofs.FixedPointRange

/-!
# Fixed-point numbers are rounded exactly

A number is scaled by `2 ^ 16` in floating-point arithmetic and then rounded to a whole number, of
which a pattern keeps the lowest 32 bits. Scaling by a power of two changes only the exponent, so it
loses nothing: either the product is itself a floating-point number, or it is beyond all of them.
For this the small numbers without a hidden leading bit have to be looked at, because scaled they
may get one. That is `Binary64.exists_value?_eq`, which doubles the mantissa until its leading bit
can be hidden.

Rounding is described by what it means: no whole number is nearer, and of two that are equally near
the even one is taken. Everything else about it follows from `isNearestEven_iff`, which compares the
distance with a half.

## Main definitions

* `IsNearestEven`: the whole number nearest to a rational one, the even one of two;
* `Binary64.IsDouble`: the numbers that floating-point numbers denote;
* `FixedPoint.Converts`: a floating-point number with its value and its pattern;
* `FixedPoint.Fits`: the numbers that round into the signed range.

## Main results

* `isNearestEven_iff`, `IsNearestEven.unique`, `IsNearestEven.mono`, `IsNearestEven.neg`: rounding
  to the nearest whole number;
* `Binary64.isDouble_scaled_iff`: scaling is exact unless it leaves the range;
* `FixedPoint.exists_nearest`: a pattern holds the lowest bits of the nearest whole number;
* `FixedPoint.exact_rounding`: conversion is exact rounding modulo `2 ^ 32`.
-/

namespace ModelPatch

/-! ### The nearest whole number -/

/-- No whole number is nearer to `q`, and if another one is as near, then this one is even. -/
def IsNearestEven (q : ℚ) (z : ℤ) : Prop :=
  (∀ w : ℤ, |(z : ℚ) - q| ≤ |(w : ℚ) - q|) ∧ ∀ w ≠ z, |(w : ℚ) - q| = |(z : ℚ) - q| → Even z

section Nearest

variable {q r : ℚ} {z w : ℤ}

/-- Two whole numbers at most a half away from `q` are neighbours with `q` in the middle. -/
theorem eq_midpoint_of_lt (hz : |(z : ℚ) - q| ≤ 1 / 2) (hw : |(w : ℚ) - q| ≤ 1 / 2) (h : z < w) :
    w = z + 1 ∧ q = z + 1 / 2 := by
  rw [abs_le] at hz hw
  have hstep : (w : ℚ) ≤ (z + 1 : ℤ) := by
    push_cast
    linarith
  obtain rfl : w = z + 1 := le_antisymm (by exact_mod_cast hstep) h
  push_cast at hw
  exact ⟨rfl, by linarith⟩

theorem abs_sub_eq_half_of_ne (hz : |(z : ℚ) - q| ≤ 1 / 2) (hw : |(w : ℚ) - q| ≤ 1 / 2)
    (h : z ≠ w) : |(z : ℚ) - q| = 1 / 2 ∧ |(w : ℚ) - q| = 1 / 2 := by
  rcases h.lt_or_gt with hlt | hgt
  · obtain ⟨rfl, rfl⟩ := eq_midpoint_of_lt hz hw hlt
    push_cast
    constructor <;> ring_nf <;> norm_num
  · obtain ⟨rfl, rfl⟩ := eq_midpoint_of_lt hw hz hgt
    push_cast
    constructor <;> ring_nf <;> norm_num

/-- A whole number is nearest if it is at most a half away, and even if it is just that. -/
theorem isNearestEven_iff :
    IsNearestEven q z ↔ |(z : ℚ) - q| ≤ 1 / 2 ∧ (|(z : ℚ) - q| = 1 / 2 → Even z) := by
  constructor
  · rintro ⟨hnear, htie⟩
    refine ⟨(hnear (round q)).trans ?_, fun hhalf => ?_⟩
    · rw [abs_sub_comm]
      exact abs_sub_round q
    · -- The number on the other side of `q` is as near.
      rcases (abs_eq (by norm_num)).mp hhalf with habove | hbelow
      · refine htie (z - 1) (by omega) ?_
        push_cast
        rw [hhalf, abs_eq (by norm_num)]
        exact .inr (by linarith)
      · refine htie (z + 1) (by omega) ?_
        push_cast
        rw [hhalf, abs_eq (by norm_num)]
        exact .inl (by linarith)
  · rintro ⟨hhalf, heven⟩
    refine ⟨fun w => ?_, fun w hne heq => ?_⟩
    · by_contra hnearer
      rw [not_le] at hnearer
      obtain ⟨hz, hw⟩ := abs_sub_eq_half_of_ne hhalf (hnearer.le.trans hhalf)
        (by rintro rfl; exact hnearer.false)
      exact hnearer.ne (hw.trans hz.symm)
    · exact heven (abs_sub_eq_half_of_ne hhalf (heq.le.trans hhalf) hne.symm).1

theorem IsNearestEven.unique (hz : IsNearestEven q z) (hw : IsNearestEven q w) : z = w := by
  rw [isNearestEven_iff] at hz hw
  by_contra hne
  obtain ⟨hzhalf, hwhalf⟩ := abs_sub_eq_half_of_ne hz.1 hw.1 hne
  have hzeven := hz.2 hzhalf
  have hweven := hw.2 hwhalf
  -- They are both even, but they are neighbours.
  rw [Int.even_iff] at hzeven hweven
  rcases lt_or_gt_of_ne hne with hlt | hgt
  · have hstep := (eq_midpoint_of_lt hz.1 hw.1 hlt).1
    omega
  · have hstep := (eq_midpoint_of_lt hw.1 hz.1 hgt).1
    omega

theorem IsNearestEven.mono (hz : IsNearestEven q z) (hw : IsNearestEven r w) (h : q ≤ r) :
    z ≤ w := by
  by_contra hlt
  rw [not_le] at hlt
  obtain ⟨-, hzabove⟩ := abs_le.mp (isNearestEven_iff.mp hz).1
  obtain ⟨hwbelow, -⟩ := abs_le.mp (isNearestEven_iff.mp hw).1
  have hstep : (w : ℚ) + 1 ≤ z := by exact_mod_cast hlt
  -- Only the same number in the middle could be rounded to both.
  obtain rfl : q = r := by linarith
  exact hlt.ne (hw.unique hz)

theorem IsNearestEven.neg (h : IsNearestEven q z) : IsNearestEven (-q) (-z) := by
  have hdist : |((-z : ℤ) : ℚ) - -q| = |(z : ℚ) - q| := by
    rw [Int.cast_neg, neg_sub_neg, abs_sub_comm]
  rw [isNearestEven_iff, hdist, even_neg]
  exact isNearestEven_iff.mp h

end Nearest

/-! ### Rounded quotients -/

namespace FixedPoint

/-- A rounded quotient is the nearest whole number. -/
theorem isNearestEven_roundHalfEven {n d : Nat} (hd : 0 < d) :
    IsNearestEven (n / d) (roundHalfEven n d) := by
  rw [isNearestEven_iff, Int.cast_natCast]
  refine ⟨abs_roundHalfEven_sub_le hd, fun hhalf => ?_⟩
  have hpos : (0 : ℚ) < d := by exact_mod_cast hd
  have hmiddle : ((n % d : ℕ) : ℚ) / d = 1 / 2 → 2 * (n % d) = d := by
    intro h
    rw [div_eq_div_iff hpos.ne' two_ne_zero, one_mul, mul_comm] at h
    exact_mod_cast h
  have hnonneg : (0 : ℚ) ≤ (n % d : ℕ) / (d : ℚ) := by positivity
  rw [natCast_div_eq hd] at hhalf
  rcases roundHalfEven_eq n d with ⟨hround, -, htie⟩ | ⟨hround, -, htie⟩
  · rw [hround, sub_add_cancel_left, abs_neg, abs_of_nonneg hnonneg] at hhalf
    rw [hround, Int.even_coe_nat, Nat.even_iff]
    exact htie (hmiddle hhalf)
  · have hless : ((n % d : ℕ) : ℚ) / d < 1 := by
      rw [div_lt_one hpos]
      exact_mod_cast Nat.mod_lt n hd
    rw [hround, Nat.cast_succ, add_sub_add_left_eq_sub, abs_of_pos (sub_pos.mpr hless)] at hhalf
    rw [hround, Int.even_coe_nat, Nat.even_add_one, Nat.not_even_iff]
    exact htie (hmiddle (by linarith))

variable {x : Binary64} {v : ℚ} {pattern : BitVec 32} {z : ℤ}

theorem isNearestEven_scaledMagnitude (mantissa : Nat) (exponent : Int) :
    IsNearestEven (mantissa * 2 ^ exponent * 65536) (scaledMagnitude mantissa exponent) := by
  obtain ⟨n, d, hd, hround, hn⟩ := exists_quotient mantissa exponent
  have hne : (d : ℚ) ≠ 0 := by exact_mod_cast hd.ne'
  have hquotient : (mantissa : ℚ) * 2 ^ exponent * 65536 = n / d := by
    rw [hn, mul_div_cancel_right₀ _ hne, scaled_eq]
  rw [hquotient, hround]
  exact isNearestEven_roundHalfEven hd

/-- **A pattern holds the lowest bits of the nearest whole number.** -/
theorem exists_nearest (h : ofBinary64 x = .ok pattern) (hv : x.value? = some v) :
    ∃ z, IsNearestEven (v * 65536) z ∧ pattern = BitVec.ofInt 32 z := by
  cases x with
  | nan => cases hv
  | infinite negative => cases hv
  | finite negative mantissa exponent =>
    obtain rfl := Option.some.inj hv
    have hnear := isNearestEven_scaledMagnitude mantissa exponent
    rw [ofBinary64] at h
    split at h
    · obtain rfl := Except.ok.inj h
      cases negative with
      | true =>
        rw [if_pos rfl, neg_mul]
        exact ⟨_, hnear.neg, rfl⟩
      | false => exact ⟨_, hnear, rfl⟩
    · cases h

end FixedPoint

/-! ### Floating-point numbers by their values -/

namespace Binary64

/-- The numbers that floating-point numbers denote. -/
def IsDouble (q : ℚ) : Prop :=
  ∃ word : BitVec 64, (ofBits word.toNat).value? = some q

/-- A sign, a field of exponent and a fraction are read from the bits in which they stand. -/
theorem ofBits_compose (negative : Bool) {field fraction : Nat} (hfield : field + 1 < fieldCount)
    (hfraction : fraction < fractionCount) :
    ofBits ((negative.toNat * fieldCount + field) * fractionCount + fraction) =
      if field = 0 then finite negative fraction (-1074)
      else finite negative (fractionCount + fraction) (field - 1075) := by
  rw [fieldCount] at hfield
  rw [fractionCount] at hfraction
  have hsign : (negative.toNat == 1) = negative := by cases negative <;> rfl
  have hbit : negative.toNat < 2 := negative.toNat_lt
  have hparts : ∀ bits, bits = (negative.toNat * 0x800 + field) * 0x10000000000000 + fraction →
      bits / (0x800 * 0x10000000000000) % 2 = negative.toNat ∧
        bits / 0x10000000000000 % 0x800 = field ∧ bits % 0x10000000000000 = fraction := by
    intro bits hbits
    omega
  obtain ⟨hnegative, hmiddle, hlow⟩ := hparts _ rfl
  simp only [ofBits, fieldCount, fractionCount, hnegative, hmiddle, hlow, hsign,
    if_neg hfield.ne]

/-- The range of the parts of a finite number. -/
theorem finite_of_ofBits {bits mantissa : Nat} {negative : Bool} {exponent : Int}
    (h : ofBits bits = finite negative mantissa exponent) :
    mantissa < 2 ^ 53 ∧ -1074 ≤ exponent ∧ exponent ≤ 971 := by
  refine ⟨FixedPoint.mantissa_lt_of_ofBits h, ?_⟩
  have hfield : bits / fractionCount % fieldCount < 0x800 := Nat.mod_lt _ (by decide)
  have hcount : fieldCount = 0x800 := rfl
  simp only [ofBits] at h
  generalize bits / fractionCount % fieldCount = field at h hfield
  split at h
  · split at h <;> cases h
  · split at h
    · obtain ⟨-, -, rfl⟩ := finite.inj h
      omega
    · obtain ⟨-, -, rfl⟩ := finite.inj h
      omega

/-- Every finite number with a hidden leading bit, or with the least exponent, has bits. -/
theorem exists_ofBits (negative : Bool) {mantissa : Nat} {exponent : Int}
    (hmantissa : mantissa < 2 ^ 53) (hlow : -1074 ≤ exponent) (hhigh : exponent ≤ 971)
    (hlead : exponent = -1074 ∨ 2 ^ 52 ≤ mantissa) :
    ∃ word : BitVec 64, ofBits word.toNat = finite negative mantissa exponent := by
  have hcount : fieldCount = 0x800 ∧ fractionCount = 2 ^ 52 := ⟨rfl, rfl⟩
  have hbit : negative.toNat < 2 := negative.toNat_lt
  have hword : ∀ field fraction, field + 1 < fieldCount → fraction < fractionCount →
      ∃ word : BitVec 64, ofBits word.toNat =
        if field = 0 then finite negative fraction (-1074)
        else finite negative (fractionCount + fraction) (field - 1075) := by
    intro field fraction hfield hfraction
    refine ⟨.ofNat 64 ((negative.toNat * fieldCount + field) * fractionCount + fraction), ?_⟩
    have hfit : (negative.toNat * fieldCount + field) * fractionCount + fraction < 2 ^ 64 := by
      rw [hcount.1, hcount.2]
      omega
    rw [BitVec.toNat_ofNat, Nat.mod_eq_of_lt hfit, ofBits_compose negative hfield hfraction]
  by_cases hhidden : mantissa < 2 ^ 52
  · obtain ⟨word, hbits⟩ := hword 0 mantissa (by decide) hhidden
    obtain rfl : exponent = -1074 := hlead.resolve_right (by omega)
    exact ⟨word, hbits.trans (if_pos rfl)⟩
  · obtain ⟨word, hbits⟩ :=
      hword (exponent + 1075).toNat (mantissa - 2 ^ 52) (by omega) (by omega)
    refine ⟨word, hbits.trans ?_⟩
    rw [if_neg (by omega), finite.injEq]
    exact ⟨rfl, by omega, by omega⟩

/-- **Every dyadic number with 53 bits in the range is denoted.** -/
theorem exists_value?_eq (negative : Bool) {mantissa : Nat} {exponent : Int}
    (hmantissa : mantissa < 2 ^ 53) (hlow : -1074 ≤ exponent)
    (hlt : (mantissa : ℚ) * 2 ^ exponent < 2 ^ 1024) :
    ∃ word : BitVec 64,
      (ofBits word.toNat).value? = (finite negative mantissa exponent).value? := by
  -- The mantissa is doubled until its leading bit can be hidden, or there are no smaller steps.
  induction hk : (exponent + 1074).toNat generalizing mantissa exponent with
  | zero =>
    obtain ⟨word, hbits⟩ := exists_ofBits negative hmantissa hlow (by omega) (.inl (by omega))
    exact ⟨word, by rw [hbits]⟩
  | succ k ih =>
    by_cases hlead : 2 ^ 52 ≤ mantissa
    · have hhigh : exponent ≤ 971 := by
        have hpow : (2 : ℚ) ^ (52 + exponent) < 2 ^ (1024 : ℤ) := by
          rw [zpow_add₀ two_ne_zero]
          refine lt_of_le_of_lt (mul_le_mul_of_nonneg_right ?_ (by positivity)) hlt
          exact_mod_cast hlead
        have hless : 52 + exponent < 1024 := (zpow_lt_zpow_iff_right₀ one_lt_two).mp hpow
        omega
      obtain ⟨word, hbits⟩ := exists_ofBits negative hmantissa hlow hhigh (.inr hlead)
      exact ⟨word, by rw [hbits]⟩
    · have hdouble : ((2 * mantissa : ℕ) : ℚ) * 2 ^ (exponent - 1) = mantissa * 2 ^ exponent := by
        rw [zpow_sub_one₀ two_ne_zero]
        push_cast
        ring
      obtain ⟨word, hword⟩ :=
        @ih (2 * mantissa) (exponent - 1) (by omega) (by omega) (by rwa [hdouble]) (by omega)
      exact ⟨word, hword.trans (by simp only [value?, hdouble])⟩

theorem value?_finite_not (negative : Bool) (mantissa : Nat) (exponent : Int) :
    (finite (!negative) mantissa exponent).value? =
      (finite negative mantissa exponent).value?.map Neg.neg := by
  cases negative <;> simp [value?]

variable {word : BitVec 64} {v : ℚ}

theorem exists_finite (hv : (ofBits word.toNat).value? = some v) :
    ∃ negative mantissa exponent, ofBits word.toNat = finite negative mantissa exponent ∧
      (finite negative mantissa exponent).value? = some v ∧
      |v| = mantissa * 2 ^ exponent := by
  cases hx : ofBits word.toNat with
  | nan => simp [hx, value?] at hv
  | infinite => simp [hx, value?] at hv
  | finite negative mantissa exponent =>
    rw [hx] at hv
    refine ⟨_, _, _, rfl, hv, ?_⟩
    obtain rfl := Option.some.inj hv
    cases negative <;> simp

/-- All numbers that are denoted stay below the first power of two that is not. -/
theorem abs_lt_of_isDouble (h : IsDouble v) : |v| < 2 ^ 1024 := by
  obtain ⟨word, hv⟩ := h
  obtain ⟨negative, mantissa, exponent, hbits, -, habs⟩ := exists_finite hv
  obtain ⟨hmantissa, -, hhigh⟩ := finite_of_ofBits hbits
  have hpow : (2 : ℚ) ^ exponent ≤ 2 ^ (971 : ℤ) := zpow_le_zpow_right₀ one_le_two hhigh
  have hmantissa' : (mantissa : ℚ) < 2 ^ 53 := by exact_mod_cast hmantissa
  rw [habs]
  calc (mantissa : ℚ) * 2 ^ exponent ≤ mantissa * 2 ^ (971 : ℤ) :=
        mul_le_mul_of_nonneg_left hpow (Nat.cast_nonneg _)
    _ < 2 ^ 53 * 2 ^ (971 : ℤ) := mul_lt_mul_of_pos_right hmantissa' (zpow_pos two_pos _)
    _ = 2 ^ 1024 := by rw [zpow_ofNat, ← pow_add]

/-- The negative of a number that is denoted is denoted. -/
theorem IsDouble.neg (h : IsDouble v) : IsDouble (-v) := by
  obtain ⟨word, hv⟩ := h
  obtain ⟨negative, mantissa, exponent, hbits, hvalue, habs⟩ := exists_finite hv
  obtain ⟨hmantissa, hlow, -⟩ := finite_of_ofBits hbits
  have hlt : (mantissa : ℚ) * 2 ^ exponent < 2 ^ 1024 := habs ▸ abs_lt_of_isDouble ⟨word, hv⟩
  obtain ⟨other, hother⟩ := exists_value?_eq (!negative) hmantissa hlow hlt
  refine ⟨other, ?_⟩
  rw [hother, value?_finite_not, hvalue, Option.map_some]

/-- **Scaling is exact unless it leaves the range.** -/
theorem isDouble_scaled_iff (hv : (ofBits word.toNat).value? = some v) :
    IsDouble (v * 65536) ↔ |v| * 65536 < 2 ^ 1024 := by
  constructor
  · intro h
    have hlt := abs_lt_of_isDouble h
    rwa [abs_mul, abs_of_pos (by norm_num : (0 : ℚ) < 65536)] at hlt
  · intro hlt
    obtain ⟨negative, mantissa, exponent, hbits, hvalue, habs⟩ := exists_finite hv
    obtain ⟨hmantissa, hlow, -⟩ := finite_of_ofBits hbits
    rw [habs, ← FixedPoint.scaled_eq] at hlt
    obtain ⟨other, hother⟩ := exists_value?_eq negative hmantissa (by omega) hlt
    refine ⟨other, ?_⟩
    obtain rfl := Option.some.inj hvalue
    rw [hother, value?, FixedPoint.scaled_eq]
    cases negative <;> simp

end Binary64

/-! ### Conversion -/

namespace FixedPoint

open Binary64

variable {word : BitVec 64} {v : ℚ}

/-- What is converted is what can be scaled. -/
theorem exists_pattern_iff (hv : (ofBits word.toNat).value? = some v) :
    (∃ pattern, ofBinary64 (ofBits word.toNat) = .ok pattern) ↔ IsDouble (v * 65536) := by
  have hfault : (∃ fault, ofBinary64 (ofBits word.toNat) = .error fault) ↔
      2 ^ 1024 ≤ |v| * 65536 := by
    rw [exists_error_iff, hv]
    simp
  rw [isDouble_scaled_iff hv, ← not_le, ← hfault]
  cases ofBinary64 (ofBits word.toNat) <;> simp

/-- A refusal names the number that is refused. -/
theorem eq_error_of_forall_ne {x : Binary64} (h : ∀ pattern, ofBinary64 x ≠ .ok pattern) :
    ofBinary64 x = .error (.unscalable x) := by
  cases x with
  | nan => rfl
  | infinite negative => rfl
  | finite negative mantissa exponent =>
    rw [ofBinary64] at h ⊢
    split
    · next hscale => simp [hscale] at h
    · rfl

/-- A floating-point number that denotes `v` has the pattern `pattern`. -/
def Converts (word : BitVec 64) (v : ℚ) (pattern : BitVec 32) : Prop :=
  (ofBits word.toNat).value? = some v ∧ ofBinary64 (ofBits word.toNat) = .ok pattern

/-- A number rounds into the signed range of 32 bits. -/
def Fits (v : ℚ) : Prop :=
  ∃ z : ℤ, IsNearestEven (v * 65536) z ∧ -2 ^ 31 ≤ z ∧ z ≤ 2 ^ 31 - 1

variable {pattern : BitVec 32}

/-- Where the nearest whole number fits, the pattern is read as that number. -/
theorem Converts.isNearestEven_toInt (h : Converts word v pattern) (hfits : Fits v) :
    IsNearestEven (v * 65536) pattern.toInt := by
  obtain ⟨z, hz, hlow, hhigh⟩ := hfits
  obtain ⟨w, hw, rfl⟩ := exists_nearest h.2 h.1
  obtain rfl := hz.unique hw
  have hexact : (BitVec.ofInt 32 z).toInt = z := by
    rw [BitVec.toInt_ofInt]
    exact Int.bmod_eq_of_le_mul_two (by push_cast; omega) (by push_cast; omega)
  rwa [hexact]

/-- The pattern of a number determines that of its negative. -/
theorem Converts.neg (h : Converts word v pattern) {other : BitVec 64}
    (hother : (ofBits other.toNat).value? = some (-v)) : Converts other (-v) (-pattern) := by
  have hscaled : IsDouble (-v * 65536) := by
    rw [neg_mul]
    exact ((exists_pattern_iff h.1).mp ⟨_, h.2⟩).neg
  obtain ⟨negated, hnegated⟩ := (exists_pattern_iff hother).mpr hscaled
  obtain ⟨z, hz, rfl⟩ := exists_nearest h.2 h.1
  obtain ⟨w, hw, rfl⟩ := exists_nearest hnegated hother
  rw [neg_mul] at hw
  rw [hw.unique hz.neg, BitVec.ofInt_neg] at hnegated
  exact ⟨hother, hnegated⟩

/-- **Conversion is exact rounding modulo `2 ^ 32`.** A number is converted exactly if it can be
scaled by `2 ^ 16` without leaving the range of floating-point numbers, and its pattern is then the
residue of the nearest whole number. So the pattern of its negative is the negative of its pattern.
Read as a signed number, patterns of numbers that round into the signed range are at most a half
away from the scaled number, and in the same order. -/
theorem exact_rounding (word : BitVec 64) :
    (∀ v, (ofBits word.toNat).value? = some v → IsDouble (v * 65536) →
      ∃ z pattern, IsNearestEven (v * 65536) z ∧ ofBinary64 (ofBits word.toNat) = .ok pattern ∧
        (pattern.toNat : ℤ) = z % 2 ^ 32) ∧
    ((∀ v, (ofBits word.toNat).value? = some v → ¬ IsDouble (v * 65536)) →
      ofBinary64 (ofBits word.toNat) = .error (.unscalable (ofBits word.toNat))) ∧
    ∀ v pattern, Converts word v pattern →
      (IsDouble (-v) ∧ ∀ other : BitVec 64, (ofBits other.toNat).value? = some (-v) →
        ofBinary64 (ofBits other.toNat) = .ok (-pattern)) ∧
      (Fits v → |(pattern.toInt : ℚ) - v * 65536| ≤ 1 / 2 ∧
        ∀ other v' pattern', Converts other v' pattern' → Fits v' → v ≤ v' →
          pattern.toInt ≤ pattern'.toInt) := by
  refine ⟨?_, ?_, ?_⟩
  · intro v hv hscaled
    obtain ⟨pattern, hpattern⟩ := (exists_pattern_iff hv).mpr hscaled
    obtain ⟨z, hz, rfl⟩ := exists_nearest hpattern hv
    refine ⟨z, _, hz, hpattern, ?_⟩
    rw [BitVec.toNat_ofInt, Int.toNat_of_nonneg (Int.emod_nonneg z (by norm_num))]
    rfl
  · intro hnone
    refine eq_error_of_forall_ne fun pattern hpattern => ?_
    obtain ⟨v, hv⟩ := Grid.exists_value hpattern
    exact hnone v hv ((exists_pattern_iff hv).mp ⟨pattern, hpattern⟩)
  · intro v pattern h
    refine ⟨⟨IsDouble.neg ⟨word, h.1⟩, fun other hother => (h.neg hother).2⟩, fun hfits => ?_⟩
    have hnear := h.isNearestEven_toInt hfits
    refine ⟨(isNearestEven_iff.mp hnear).1, fun other v' pattern' h' hfits' hle => ?_⟩
    have hscaled : v * 65536 ≤ v' * 65536 := mul_le_mul_of_nonneg_right hle (by norm_num)
    exact hnear.mono (h'.isNearestEven_toInt hfits') hscaled

/-- Ties: a half goes down to zero, and one and a half and two and a half both go to two. -/
example : ([0x3EE0000000000000, 0x3EF8000000000000, 0x3F04000000000000, 0xBEF8000000000000].map
    fun bits => (ofBinary64 (.ofBits bits)).toOption) = [some 0, some 2, some 2, some (-2)] := by
  decide

end FixedPoint

end ModelPatch

import Mathlib
import ModelPatch.Proofs.MatrixHalves

/-!
# The range of fixed-point numbers

A fixed-point pattern has 32 bits, and what a number becomes when it is scaled and rounded is a
whole number of any size. The pattern keeps its lowest 32 bits. Read back as a signed number, that
is the number itself, up to the rounding, if the rounded number lies in the signed range; otherwise
it is wrong by a multiple of `2 ^ 16`. The packing of a matrix refuses what cannot be scaled at all
and nothing else, so numbers between the two limits are stored as other numbers.

Because ties go to the even neighbour, and both ends of the signed range are even, the lower limit
still rounds into the range, and the upper one does not.

## Main definitions

* `Binary64.value?`: the number that a floating-point number denotes;
* `FixedPoint.InRange`: the numbers that round into the signed range;
* `Grid.value?`: the number that an element of a matrix denotes;
* `Grid.storedAt?`: an element of a packed matrix, read as a signed number;
* `Grid.IsFaithful`: a packed matrix has the given elements, up to one unit;
* `Grid.doubles`: a matrix of floating-point numbers that are given by their bits.

## Main results

* `FixedPoint.roundHalfEven_lt_iff`, `FixedPoint.roundHalfEven_le_iff`: where the rounding reaches
  an even number;
* `FixedPoint.abs_toInt_sub_le_iff`: a pattern is faithful exactly in the signed range;
* `Grid.stored_iff_in_range`: which elements of a packed matrix are faithful, and which matrices are
  refused;
* `Grid.stored_elsewhere`: a shift by 40000 is stored as one by -25536.
-/

namespace ModelPatch

/-! ### Rounding -/

namespace FixedPoint

variable {n d k : Nat}

/-- Rounding goes up from above the middle between two numbers, and from the middle itself if the
lower number is odd. -/
theorem roundHalfEven_eq (n d : Nat) :
    (roundHalfEven n d = n / d ∧ 2 * (n % d) ≤ d ∧ (2 * (n % d) = d → n / d % 2 = 0)) ∨
      (roundHalfEven n d = n / d + 1 ∧ d ≤ 2 * (n % d) ∧ (2 * (n % d) = d → n / d % 2 = 1)) := by
  simp only [roundHalfEven]
  split
  · left
    omega
  · right
    omega

/-- A quotient is rounded to less than an even number exactly if it lies more than a half below. -/
theorem roundHalfEven_lt_iff (hd : 0 < d) (hk : k % 2 = 0) :
    roundHalfEven n d < k ↔ 2 * n + d < 2 * (k * d) := by
  have hsplit : d * (n / d) + n % d = n := Nat.div_add_mod n d
  have hrest : n % d < d := Nat.mod_lt n hd
  have hround := roundHalfEven_eq n d
  rcases Nat.lt_trichotomy (n / d + 1) k with h | h | h
  · have hmul : (n / d + 2) * d ≤ k * d := Nat.mul_le_mul_right d h
    rw [Nat.add_mul, Nat.mul_comm (n / d)] at hmul
    omega
  · -- Only here does the rest decide. The number below is odd, so that the middle goes up.
    have hmul : k * d = d * (n / d) + d := by rw [← h, Nat.add_mul, Nat.mul_comm, Nat.one_mul]
    omega
  · have hmul : k * d ≤ n / d * d := Nat.mul_le_mul_right d (Nat.le_of_lt_succ h)
    rw [Nat.mul_comm (n / d)] at hmul
    omega

/-- A quotient is rounded to at most an even number exactly if it lies at most a half above. -/
theorem roundHalfEven_le_iff (hd : 0 < d) (hk : k % 2 = 0) :
    roundHalfEven n d ≤ k ↔ 2 * n ≤ 2 * (k * d) + d := by
  have hsplit : d * (n / d) + n % d = n := Nat.div_add_mod n d
  have hrest : n % d < d := Nat.mod_lt n hd
  have hround := roundHalfEven_eq n d
  rcases Nat.lt_trichotomy (n / d) k with h | h | h
  · have hmul : (n / d + 1) * d ≤ k * d := Nat.mul_le_mul_right d h
    rw [Nat.add_mul, Nat.mul_comm (n / d)] at hmul
    omega
  · have hmul : k * d = d * (n / d) := by rw [← h, Nat.mul_comm]
    omega
  · have hmul : (k + 1) * d ≤ n / d * d := Nat.mul_le_mul_right d h
    rw [Nat.add_mul, Nat.mul_comm (n / d)] at hmul
    omega

/-- A quotient is its whole part and what is left. -/
theorem natCast_div_eq (hd : 0 < d) :
    (n : ℚ) / d = (n / d : ℕ) + (n % d : ℕ) / (d : ℚ) := by
  have hpos : (0 : ℚ) < d := by exact_mod_cast hd
  have hsplit : (n : ℚ) = d * (n / d : ℕ) + (n % d : ℕ) := by
    exact_mod_cast (Nat.div_add_mod n d).symm
  rw [hsplit]
  field_simp

/-- A quotient is rounded by at most a half. -/
theorem abs_roundHalfEven_sub_le (hd : 0 < d) :
    |(roundHalfEven n d : ℚ) - n / d| ≤ 1 / 2 := by
  have hpos : (0 : ℚ) < d := by exact_mod_cast hd
  rw [natCast_div_eq hd, abs_le]
  rcases roundHalfEven_eq n d with ⟨hround, hrest, -⟩ | ⟨hround, hrest, -⟩
  · have hhalf : ((n % d : ℕ) : ℚ) / d ≤ 1 / 2 := by
      rw [div_le_iff₀ hpos]
      have hcast : (2 : ℚ) * (n % d : ℕ) ≤ d := by exact_mod_cast hrest
      linarith
    have hnonneg : (0 : ℚ) ≤ (n % d : ℕ) / (d : ℚ) := by positivity
    rw [hround]
    constructor <;> linarith
  · have hhalf : 1 / 2 ≤ ((n % d : ℕ) : ℚ) / d := by
      rw [le_div_iff₀ hpos]
      have hcast : (d : ℚ) ≤ 2 * (n % d : ℕ) := by exact_mod_cast hrest
      linarith
    have hone : ((n % d : ℕ) : ℚ) / d < 1 := by
      rw [div_lt_one hpos]
      exact_mod_cast Nat.mod_lt n hd
    rw [hround, Nat.cast_add, Nat.cast_one]
    constructor <;> linarith

/-! ### Scaling -/

/-- A scaled magnitude is a rounded quotient, whether the exponent is large or small. -/
theorem exists_quotient (mantissa : Nat) (exponent : Int) :
    ∃ n d, 0 < d ∧ scaledMagnitude mantissa exponent = roundHalfEven n d ∧
      (n : ℚ) = mantissa * 2 ^ (exponent + 16) * d := by
  rw [scaledMagnitude]
  split
  · next h =>
    obtain ⟨k, hk⟩ := Int.eq_ofNat_of_zero_le h
    refine ⟨mantissa <<< k, 1, by decide, ?_, ?_⟩
    · simp [hk, roundHalfEven, Nat.mod_one]
    · rw [hk, Nat.shiftLeft_eq, zpow_natCast]
      push_cast
      ring
  · next h =>
    obtain ⟨k, hk⟩ := Int.eq_ofNat_of_zero_le (by omega : 0 ≤ -(exponent + 16))
    have hneg : exponent + 16 = -(k : Int) := by omega
    refine ⟨mantissa, 1 <<< k, by simp [Nat.shiftLeft_eq], by simp [hk], ?_⟩
    rw [hneg, zpow_neg, zpow_natCast, Nat.shiftLeft_eq]
    push_cast
    field_simp

variable {mantissa : Nat} {exponent : Int}

/-- A scaled magnitude is rounded by at most a half. -/
theorem abs_scaledMagnitude_sub_le (mantissa : Nat) (exponent : Int) :
    |(scaledMagnitude mantissa exponent : ℚ) - mantissa * 2 ^ (exponent + 16)| ≤ 1 / 2 := by
  obtain ⟨n, d, hd, hround, hn⟩ := exists_quotient mantissa exponent
  have hpos : (d : ℚ) ≠ 0 := by exact_mod_cast hd.ne'
  have hquotient : (mantissa : ℚ) * 2 ^ (exponent + 16) = n / d := by
    rw [hn, mul_div_cancel_right₀ _ hpos]
  rw [hround, hquotient]
  exact abs_roundHalfEven_sub_le hd

theorem scaledMagnitude_lt_iff (hk : k % 2 = 0) :
    scaledMagnitude mantissa exponent < k ↔
      (mantissa : ℚ) * 2 ^ (exponent + 16) < k - 1 / 2 := by
  obtain ⟨n, d, hd, hround, hn⟩ := exists_quotient mantissa exponent
  have hpos : (0 : ℚ) < d := by exact_mod_cast hd
  have hscale : (2 * n + d : ℚ) < 2 * (k * d) ↔
      (mantissa : ℚ) * 2 ^ (exponent + 16) * d < (k - 1 / 2) * d := by
    rw [← hn]
    constructor <;> intro h <;> linarith
  rw [hround, roundHalfEven_lt_iff hd hk, ← Nat.cast_lt (α := ℚ)]
  push_cast
  rw [hscale, mul_lt_mul_iff_left₀ hpos]

theorem scaledMagnitude_le_iff (hk : k % 2 = 0) :
    scaledMagnitude mantissa exponent ≤ k ↔
      (mantissa : ℚ) * 2 ^ (exponent + 16) ≤ k + 1 / 2 := by
  obtain ⟨n, d, hd, hround, hn⟩ := exists_quotient mantissa exponent
  have hpos : (0 : ℚ) < d := by exact_mod_cast hd
  have hscale : (2 * n : ℚ) ≤ 2 * (k * d) + d ↔
      (mantissa : ℚ) * 2 ^ (exponent + 16) * d ≤ (k + 1 / 2) * d := by
    rw [← hn]
    constructor <;> intro h <;> linarith
  rw [hround, roundHalfEven_le_iff hd hk, ← Nat.cast_le (α := ℚ)]
  push_cast
  rw [hscale, mul_le_mul_iff_left₀ hpos]

/-- The numbers that round into the signed range. The middle below the upper limit goes up to the
limit, and so leaves the range; the middle below the lower limit goes up to it too, and comes in. -/
def InRange (v : ℚ) : Prop :=
  -32768 - 1 / 131072 ≤ v ∧ v < 32768 - 1 / 131072

theorem scaled_eq (mantissa : Nat) (exponent : Int) :
    (mantissa : ℚ) * 2 ^ (exponent + 16) = mantissa * 2 ^ exponent * 65536 := by
  rw [zpow_add₀ (by norm_num)]
  norm_num
  ring

/-- A number that is not negative lies above the lower limit. -/
theorem inRange_magnitude_iff (mantissa : Nat) (exponent : Int) :
    InRange (mantissa * 2 ^ exponent) ↔ scaledMagnitude mantissa exponent < 2147483648 := by
  have hnonneg : (0 : ℚ) ≤ mantissa * 2 ^ exponent := by positivity
  rw [scaledMagnitude_lt_iff (by decide), scaled_eq, InRange]
  push_cast
  constructor
  · rintro ⟨-, hupper⟩
    linarith
  · intro hupper
    constructor <;> linarith

/-- A number that is not positive lies below the upper limit. -/
theorem inRange_neg_magnitude_iff (mantissa : Nat) (exponent : Int) :
    InRange (-(mantissa * 2 ^ exponent)) ↔ scaledMagnitude mantissa exponent ≤ 2147483648 := by
  have hnonneg : (0 : ℚ) ≤ mantissa * 2 ^ exponent := by positivity
  rw [scaledMagnitude_le_iff (by decide), scaled_eq, InRange]
  push_cast
  constructor
  · rintro ⟨hlower, -⟩
    linarith
  · intro hlower
    constructor <;> linarith

end FixedPoint

/-! ### Patterns -/

/-- The number that a floating-point number denotes; `none` if it is infinite or no number. -/
def Binary64.value? : Binary64 → Option ℚ
  | finite negative mantissa exponent =>
    some (if negative then -(mantissa * 2 ^ exponent) else mantissa * 2 ^ exponent)
  | _ => none

namespace FixedPoint

variable {x : Binary64} {pattern : BitVec 32} {v : ℚ}

/-- What a pattern keeps of a number: the lowest bits of the scaled number, rounded by at most a
half. -/
theorem exists_rounded (h : ofBinary64 x = .ok pattern) (hv : x.value? = some v) :
    ∃ z : ℤ, pattern = BitVec.ofInt 32 z ∧ |(z : ℚ) - v * 65536| ≤ 1 / 2 ∧
      (InRange v ↔ -2 ^ 31 ≤ z ∧ z < 2 ^ 31) := by
  cases x with
  | nan => cases hv
  | infinite negative => cases hv
  | finite negative mantissa exponent =>
    rw [ofBinary64] at h
    split at h
    · obtain rfl := Except.ok.inj h
      obtain rfl := Option.some.inj hv
      have hround := abs_scaledMagnitude_sub_le mantissa exponent
      rw [scaled_eq] at hround
      cases negative with
      | true =>
        refine ⟨-(scaledMagnitude mantissa exponent : ℤ), rfl, ?_, ?_⟩
        · rw [if_pos rfl, abs_sub_comm]
          push_cast
          rwa [neg_mul, neg_sub_neg]
        · rw [if_pos rfl, inRange_neg_magnitude_iff]
          omega
      | false =>
        refine ⟨scaledMagnitude mantissa exponent, rfl, hround, ?_⟩
        rw [if_neg Bool.false_ne_true, inRange_magnitude_iff]
        omega
    · cases h

/-- **A pattern is faithful exactly in the signed range.** Outside it is wrong by a multiple of
`2 ^ 16`. -/
theorem abs_toInt_sub_le_iff (h : ofBinary64 x = .ok pattern) (hv : x.value? = some v) :
    |(pattern.toInt : ℚ) / 65536 - v| ≤ 1 / 65536 ↔ InRange v := by
  obtain ⟨z, rfl, hround, hrange⟩ := exists_rounded h hv
  have hunit : |((BitVec.ofInt 32 z).toInt : ℚ) / 65536 - v| ≤ 1 / 65536 ↔
      |((BitVec.ofInt 32 z).toInt : ℚ) - v * 65536| ≤ 1 := by
    rw [abs_le, abs_le]
    constructor
    · rintro ⟨hlow, hhigh⟩
      constructor <;> linarith
    · rintro ⟨hlow, hhigh⟩
      constructor <;> linarith
  rw [hunit, hrange]
  constructor
  · -- The number that is read differs from the rounded one by a multiple of `2 ^ 32`.
    intro hnear
    have hclose : |((BitVec.ofInt 32 z).toInt : ℚ) - z| < 2 := by
      rw [abs_le] at hround hnear
      rw [abs_lt]
      constructor <;> linarith
    have hdvd : (2 ^ 32 : ℤ) ∣ (BitVec.ofInt 32 z).toInt - z := by
      rw [BitVec.toInt_ofInt]
      exact Int.dvd_bmod_sub_self
    have hsmall : |(BitVec.ofInt 32 z).toInt - z| < 2 := by exact_mod_cast hclose
    have hexact : (BitVec.ofInt 32 z).toInt - z = 0 :=
      Int.eq_zero_of_abs_lt_dvd hdvd (hsmall.trans (by norm_num))
    have hlow := BitVec.le_toInt (BitVec.ofInt 32 z)
    have hhigh := BitVec.toInt_lt (x := BitVec.ofInt 32 z)
    omega
  · rintro ⟨hlow, hhigh⟩
    have hexact : (BitVec.ofInt 32 z).toInt = z := by
      rw [BitVec.toInt_ofInt]
      exact Int.bmod_eq_of_le_mul_two (by push_cast; omega) (by push_cast; omega)
    rw [hexact]
    exact hround.trans (by norm_num)

theorem shiftLeft_lt_iff (m k n : Nat) : m <<< k < 1 <<< n ↔ (m : ℚ) * 2 ^ k < 2 ^ n := by
  rw [Nat.shiftLeft_eq, Nat.shiftLeft_eq, Nat.one_mul]
  norm_cast

/-- A mantissa of 53 bits is scaled unless the result has more than 1024. -/
theorem isScalable_iff {mantissa : Nat} (hm : mantissa < 2 ^ 53) (exponent : Int) :
    isScalable mantissa exponent = true ↔ (mantissa : ℚ) * 2 ^ (exponent + 16) < 2 ^ 1024 := by
  rw [isScalable, Bool.or_eq_true, decide_eq_true_iff, decide_eq_true_iff]
  rcases lt_or_ge (exponent + 16) 0 with h | h
  · have hpow : (2 : ℚ) ^ (exponent + 16) ≤ 1 := zpow_le_one_of_nonpos₀ (by norm_num) h.le
    have hmantissa : (mantissa : ℚ) < 2 ^ 53 := by exact_mod_cast hm
    have hsmall : (mantissa : ℚ) < 2 ^ 1024 :=
      hmantissa.trans (pow_lt_pow_right₀ one_lt_two (by decide))
    have hmul : (mantissa : ℚ) * 2 ^ (exponent + 16) ≤ mantissa :=
      mul_le_of_le_one_right (Nat.cast_nonneg _) hpow
    exact iff_of_true (.inl h) (hmul.trans_lt hsmall)
  · obtain ⟨k, hk⟩ := Int.eq_ofNat_of_zero_le h
    rw [or_iff_right h.not_gt, hk, zpow_natCast, ← shiftLeft_lt_iff]
    rfl

/-- The mantissa of a number that is given by its bits has 53 bits. -/
theorem mantissa_lt_of_ofBits {bits mantissa : Nat} {negative : Bool} {exponent : Int}
    (h : Binary64.ofBits bits = .finite negative mantissa exponent) : mantissa < 2 ^ 53 := by
  have hfraction : bits % Binary64.fractionCount < 2 ^ 52 := Nat.mod_lt _ (by decide)
  rw [Binary64.ofBits] at h
  split at h
  · split at h <;> cases h
  · split at h
    · obtain ⟨-, rfl, -⟩ := Binary64.finite.inj h
      omega
    · obtain ⟨-, rfl, -⟩ := Binary64.finite.inj h
      rw [Binary64.fractionCount] at hfraction ⊢
      omega

/-- What is refused: infinities, what is no number, and what cannot be scaled. -/
theorem exists_error_iff (bits : Nat) :
    (∃ fault, ofBinary64 (.ofBits bits) = .error fault) ↔
      ∀ v, (Binary64.ofBits bits).value? = some v → 2 ^ 1024 ≤ |v| * 65536 := by
  cases hx : Binary64.ofBits bits with
  | nan => exact iff_of_true ⟨_, rfl⟩ fun v hv => nomatch hv
  | infinite negative => exact iff_of_true ⟨_, rfl⟩ fun v hv => nomatch hv
  | finite negative mantissa exponent =>
    have hscale := isScalable_iff (mantissa_lt_of_ofBits hx) exponent
    have hvalue : ∀ v, (Binary64.finite negative mantissa exponent).value? = some v →
        |v| * 65536 = mantissa * 2 ^ (exponent + 16) := by
      intro v hv
      obtain rfl := Option.some.inj hv
      rw [scaled_eq]
      cases negative <;> simp
    rw [ofBinary64]
    split
    · next h =>
      refine iff_of_false (by simp) fun hall => ?_
      have hlarge := hall _ rfl
      rw [hvalue _ rfl] at hlarge
      exact (hscale.mp h).not_ge hlarge
    · next h =>
      refine iff_of_true ⟨_, rfl⟩ fun v hv => ?_
      rw [hvalue v hv]
      exact not_lt.mp (mt hscale.mpr h)

end FixedPoint

/-! ### Matrices -/

namespace Grid

variable {g : Grid Binary64} {bytes : Bytes}

/-- The number that an element of a matrix denotes, if it is one. -/
def value? (g : Grid Binary64) (i j : Fin 4) : Option ℚ :=
  ((g.get i).get j).value?

/-- An element of a packed matrix as a signed number with sixteen bits behind the point, put
together from its halves. -/
def storedAt? (bytes : Bytes) (i j : Fin 4) : Option ℚ := do
  let upper ← Bytes.slice? bytes (2 * (4 * i + j)) 2
  let lower ← Bytes.slice? bytes (0x20 + 2 * (4 * i + j)) 2
  return (BitVec.ofNat 32 (Bytes.toNat (upper ++ lower))).toInt / 65536

/-- Each element is stored as a number that is at most one unit in the last place away. -/
def IsFaithful (g : Grid Binary64) (bytes : Bytes) : Prop :=
  ∀ i j : Fin 4, ∃ v stored, g.value? i j = some v ∧ storedAt? bytes i j = some stored ∧
    |stored - v| ≤ 1 / 65536

/-- The pattern of an element is what is put together from its halves. -/
theorem storedAt?_of_pack (h : g.pack = .ok bytes) (i j : Fin 4) :
    ∃ pattern, FixedPoint.ofBinary64 ((g.get i).get j) = .ok pattern ∧
      storedAt? bytes i j = some ((pattern.toInt : ℚ) / 65536) := by
  obtain ⟨pattern, upper, lower, hpattern, hupper, hlower, hboth⟩ := exists_pattern_of_pack h i j
  have hread : BitVec.ofNat 32 (Bytes.toNat (upper ++ lower)) = pattern := by
    have hlt : pattern.toNat < 256 ^ 4 := pattern.isLt
    rw [hboth, Bytes.toNat_ofNat, Nat.mod_eq_of_lt hlt, BitVec.ofNat_toNat, BitVec.setWidth_eq]
  refine ⟨pattern, hpattern, ?_⟩
  simp only [storedAt?, hupper, hlower, Option.bind_eq_bind, Option.bind_some, hread]
  rfl

/-- An element that has a pattern has a value. -/
theorem exists_value {x : Binary64} {pattern : BitVec 32}
    (h : FixedPoint.ofBinary64 x = .ok pattern) : ∃ v, x.value? = some v := by
  cases x with
  | nan => cases h
  | infinite negative => cases h
  | finite negative mantissa exponent => exact ⟨_, rfl⟩

/-- The matrix of the floating-point numbers with the given bits. -/
def doubles (words : Grid (BitVec 64)) : Grid Binary64 :=
  words.mapElements fun word => .ofBits word.toNat

theorem get_doubles (words : Grid (BitVec 64)) (i j : Fin 4) :
    ((doubles words).get i).get j = .ofBits ((words.get i).get j).toNat := by
  simp [doubles, mapElements]

/-- Each element that is read from the bytes is within one unit of the given one exactly if that
rounds into the signed range. -/
theorem exists_stored_of_pack (h : g.pack = .ok bytes) (i j : Fin 4) :
    ∃ v stored, g.value? i j = some v ∧ storedAt? bytes i j = some stored ∧
      (|stored - v| ≤ 1 / 65536 ↔ FixedPoint.InRange v) := by
  obtain ⟨pattern, hpattern, hstored⟩ := storedAt?_of_pack h i j
  obtain ⟨v, hv⟩ := exists_value hpattern
  exact ⟨v, _, hv, hstored, FixedPoint.abs_toInt_sub_le_iff hpattern hv⟩

/-- A matrix is packed faithfully exactly if all its elements are in the range. -/
theorem isFaithful_iff (h : g.pack = .ok bytes) :
    IsFaithful g bytes ↔ ∀ i j : Fin 4, ∃ v, g.value? i j = some v ∧ FixedPoint.InRange v := by
  refine forall₂_congr fun i j => ?_
  obtain ⟨v, stored, hv, hstored, hrange⟩ := exists_stored_of_pack h i j
  constructor
  · rintro ⟨v', stored', hv', hstored', hnear⟩
    obtain rfl : v = v' := Option.some.inj (hv.symm.trans hv')
    obtain rfl : stored = stored' := Option.some.inj (hstored.symm.trans hstored')
    exact ⟨v, hv, hrange.mp hnear⟩
  · rintro ⟨v', hv', hin⟩
    obtain rfl : v = v' := Option.some.inj (hv.symm.trans hv')
    exact ⟨v, stored, hv, hstored, hrange.mpr hin⟩

/-- **Which elements are stored as themselves.** A matrix of floating-point numbers is refused
exactly if one of them is infinite or no number, or too large to be scaled. Otherwise it is packed
into 64 bytes, and each element that is read from them is within one unit of the given one exactly
if that rounds into the signed range. So the matrices that are neither refused nor packed faithfully
are those that can be scaled but have an element outside the range. -/
theorem stored_iff_in_range (words : Grid (BitVec 64)) :
    ((∃ fault, (doubles words).pack = .error fault) ↔
      ∃ i j : Fin 4, ∀ v, (doubles words).value? i j = some v → 2 ^ 1024 ≤ |v| * 65536) ∧
    (∀ bytes, (doubles words).pack = .ok bytes → bytes.length = 64 ∧
      ∀ i j : Fin 4, ∃ v stored, (doubles words).value? i j = some v ∧
        storedAt? bytes i j = some stored ∧
        (|stored - v| ≤ 1 / 65536 ↔ FixedPoint.InRange v)) ∧
    ((∃ fault, (doubles words).pack = .error fault) ∨
        (∃ bytes, (doubles words).pack = .ok bytes ∧ bytes.length = 64 ∧
          IsFaithful (doubles words) bytes) ↔
      (∃ i j : Fin 4, ∀ v, (doubles words).value? i j = some v → 2 ^ 1024 ≤ |v| * 65536) ∨
        ∀ i j : Fin 4, ∃ v, (doubles words).value? i j = some v ∧ FixedPoint.InRange v) := by
  have hrefused : (∃ fault, (doubles words).pack = .error fault) ↔
      ∃ i j : Fin 4, ∀ v, (doubles words).value? i j = some v → 2 ^ 1024 ≤ |v| * 65536 := by
    rw [exists_pack_eq_error_iff]
    refine exists₂_congr fun i j => ?_
    change (∃ fault, FixedPoint.ofBinary64 (((doubles words).get i).get j) = .error fault) ↔ _
    rw [value?, get_doubles, FixedPoint.exists_error_iff]
  refine ⟨hrefused, fun bytes h => ⟨length_of_pack h, exists_stored_of_pack h⟩, ?_⟩
  rw [← hrefused]
  cases hpack : (doubles words).pack with
  | error fault => simp
  | ok bytes => simp [length_of_pack hpack, isFaithful_iff hpack]

/-- A shift by 40000 along the first axis. -/
def farWords : Grid (BitVec 64) :=
  #v[#v[0x3FF0000000000000, 0, 0, 0],
     #v[0, 0x3FF0000000000000, 0, 0],
     #v[0, 0, 0x3FF0000000000000, 0],
     #v[0x40E3880000000000, 0, 0, 0x3FF0000000000000]]

/-- The bytes of this shift. -/
def farBytes : Bytes :=
  [0, 1, 0, 0, 0, 0, 0, 0, 0, 0, 0, 1, 0, 0, 0, 0,
    0, 0, 0, 0, 0, 1, 0, 0, 0x9C, 0x40, 0, 0, 0, 0, 0, 1] ++ List.replicate 32 0

/-- **A number outside the range is stored as another one**: the shift by 40000 is not refused, and
read back it is one by -25536. -/
theorem stored_elsewhere :
    (doubles farWords).pack = .ok farBytes ∧
      (doubles farWords).value? 3 0 = some 40000 ∧
      storedAt? farBytes 3 0 = some (-25536) ∧
      ¬ ((∃ fault, (doubles farWords).pack = .error fault) ∨
        ∃ bytes, (doubles farWords).pack = .ok bytes ∧ bytes.length = 64 ∧
          IsFaithful (doubles farWords) bytes) := by
  have hpack : (doubles farWords).pack = .ok farBytes := by decide +kernel
  have hvalue : (doubles farWords).value? 3 0 = some 40000 := by
    decide +kernel
  have hstored : storedAt? farBytes 3 0 = some (-25536) := by decide +kernel
  refine ⟨hpack, hvalue, hstored, ?_⟩
  rintro (⟨fault, hfault⟩ | ⟨bytes, hbytes, -, hfaithful⟩)
  · rw [hpack] at hfault
    cases hfault
  · obtain rfl : farBytes = bytes := Except.ok.inj (hpack.symm.trans hbytes)
    obtain ⟨v, stored, hv, hs, hnear⟩ := hfaithful 3 0
    obtain rfl : 40000 = v := Option.some.inj (hvalue.symm.trans hv)
    obtain rfl : -25536 = stored := Option.some.inj (hstored.symm.trans hs)
    norm_num at hnear

end Grid

end ModelPatch

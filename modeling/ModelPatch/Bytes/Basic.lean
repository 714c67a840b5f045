/-!
# Byte strings

Assets are plain byte strings, and every number in them is big-endian. This file holds the readers
and writers of such numbers. A read outside the bytes and a number too large for its field are
answered with `none`, so that a caller has to say what happens then.

## Main definitions

* `Bytes.toNat`, `Bytes.ofNat`: numbers as big-endian byte strings;
* `Bytes.half?`, `Bytes.word?`: the 16-bit and the 32-bit number at an offset;
* `Bytes.ofWord?`: a number as the four bytes of a word;
* `Bytes.setFromEnd?`: a byte overwritten at a distance from the end;
* `Bytes.positions`: where a pattern occurs.
-/

namespace ModelPatch

/-- A string of bytes: an asset, or a piece of one. -/
abbrev Bytes := List UInt8

namespace Bytes

/-! ### Big-endian numbers -/

/-- The number whose digits in base 256 are the given bytes, the most significant first. -/
def toNat (bytes : Bytes) : Nat :=
  bytes.foldl (fun n b => n * 256 + b.toNat) 0

/-- The lowest `width` digits of `n` in base 256, the most significant first. -/
def ofNat : (width : Nat) → Nat → Bytes
  | 0, _ => []
  | width + 1, n => ofNat width (n / 256) ++ [UInt8.ofNat n]

theorem toNat_append_singleton (bytes : Bytes) (b : UInt8) :
    toNat (bytes ++ [b]) = toNat bytes * 256 + b.toNat := by
  simp [toNat]

@[simp] theorem length_ofNat (width n : Nat) : (ofNat width n).length = width := by
  induction width generalizing n with
  | zero => rfl
  | succ w ih => simp [ofNat, ih]

/-- The `width` bytes at `offset`, if there are that many. -/
def slice? (bytes : Bytes) (offset width : Nat) : Option Bytes :=
  let piece := (bytes.drop offset).take width
  if piece.length = width then some piece else none

theorem slice?_eq_some_iff {bytes piece : Bytes} {offset width : Nat} :
    slice? bytes offset width = some piece ↔
      piece = (bytes.drop offset).take width ∧ piece.length = width := by
  unfold slice?
  grind

/-- A read succeeds if it stays inside the bytes. -/
theorem slice?_isSome_of_le {bytes : Bytes} {offset width : Nat}
    (h : offset + width ≤ bytes.length) : (slice? bytes offset width).isSome := by
  simp [slice?]
  omega

/-- The 16-bit number at `offset`. -/
def half? (bytes : Bytes) (offset : Nat) : Option Nat :=
  (slice? bytes offset 2).map toNat

/-- The 32-bit number at `offset`. -/
def word? (bytes : Bytes) (offset : Nat) : Option Nat :=
  (slice? bytes offset 4).map toNat

/-- One more than the largest number that fits in a word of 32 bits. -/
def wordLimit : Nat := 0x100000000

/-- The four bytes of a 32-bit number; `none` if `n` needs more. -/
def ofWord? (n : Nat) : Option Bytes :=
  if n < wordLimit then some (ofNat 4 n) else none

/-! ### Overwriting -/

/-- The bytes with `b` written at `distance` from the end, where the last byte has distance one;
`none` if there is no such byte. -/
def setFromEnd? (bytes : Bytes) (distance : Nat) (b : UInt8) : Option Bytes :=
  if 0 < distance ∧ distance ≤ bytes.length then
    some (bytes.set (bytes.length - distance) b)
  else
    none

/-- The offset that a bound counts from: a negative bound counts from the end, and none lies
outside the bytes. -/
def clampBound (bytes : Bytes) (bound : Int) : Nat :=
  let n : Int := bytes.length
  (min n (if bound < 0 then max 0 (bound + n) else bound)).toNat

/-- The bytes with those from `start` up to `stop` replaced by `piece`. Bounds are read by
`clampBound`; where `stop` comes before `start`, the piece is inserted at `start`. -/
def splice (bytes : Bytes) (start stop : Int) (piece : Bytes) : Bytes :=
  let lo := clampBound bytes start
  let hi := max lo (clampBound bytes stop)
  bytes.take lo ++ piece ++ bytes.drop hi

/-- The bytes up to `bound`, which is read by `clampBound`. -/
def upTo (bytes : Bytes) (bound : Int) : Bytes :=
  bytes.take (clampBound bytes bound)

/-! ### Searching -/

/-- The positions at which `pattern` occurs, in ascending order, when the first byte stands at
position `start`. -/
def positionsFrom (pattern : Bytes) (start : Nat) : Bytes → List Nat
  | [] => if pattern.isEmpty then [start] else []
  | b :: bs =>
    if pattern.isPrefixOf (b :: bs) then
      start :: positionsFrom pattern (start + 1) bs
    else
      positionsFrom pattern (start + 1) bs

/-- The positions at which `pattern` occurs in `bytes`, in ascending order; occurrences may
overlap. -/
def positions (pattern bytes : Bytes) : List Nat :=
  positionsFrom pattern 0 bytes

theorem mem_positionsFrom {pattern bytes : Bytes} {start i : Nat} :
    i ∈ positionsFrom pattern start bytes ↔
      ∃ k, i = start + k ∧ k ≤ bytes.length ∧ pattern <+: bytes.drop k := by
  induction bytes generalizing start with
  | nil =>
    cases pattern <;> simp [positionsFrom]
  | cons b bs ih =>
    have shift : (∃ k, i = start + 1 + k ∧ k ≤ bs.length ∧ pattern <+: bs.drop k) ↔
        ∃ k, i = start + (k + 1) ∧ k + 1 ≤ (b :: bs).length ∧
          pattern <+: (b :: bs).drop (k + 1) := by
      simp [Nat.add_assoc, Nat.add_comm 1]
    have split : (∃ k, i = start + k ∧ k ≤ (b :: bs).length ∧ pattern <+: (b :: bs).drop k) ↔
        (i = start ∧ pattern <+: b :: bs) ∨
          ∃ k, i = start + (k + 1) ∧ k + 1 ≤ (b :: bs).length ∧
            pattern <+: (b :: bs).drop (k + 1) := by
      constructor
      · rintro ⟨k, hk⟩
        cases k with
        | zero => exact .inl (by simpa using hk)
        | succ k => exact .inr ⟨k, hk⟩
      · rintro (⟨h, hp⟩ | ⟨k, hk⟩)
        · exact ⟨0, by simpa using ⟨h, hp⟩⟩
        · exact ⟨k + 1, hk⟩
    rw [split, ← shift, ← ih, positionsFrom]
    by_cases h : pattern <+: b :: bs <;> simp [h, List.isPrefixOf_iff_prefix]

/-- The positions of a pattern are the offsets at which it stands. -/
theorem mem_positions {pattern bytes : Bytes} {i : Nat} :
    i ∈ positions pattern bytes ↔ i ≤ bytes.length ∧ pattern <+: bytes.drop i := by
  simp [positions, mem_positionsFrom]

/-- The first position at which `pattern` occurs in `bytes`. -/
def firstPosition? (pattern bytes : Bytes) : Option Nat :=
  (positions pattern bytes).head?

end Bytes

end ModelPatch

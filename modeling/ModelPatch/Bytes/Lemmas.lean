import Mathlib.Algebra.Order.Ring.Nat
import Mathlib.Data.List.Induction
import ModelPatch.Bytes.Basic

/-!
# Big-endian numbers, written and read back

## Main results

* `Bytes.toNat_ofNat`: writing a number and reading it back loses nothing but what does not fit;
* `Bytes.ofNat_toNat`: reading a number and writing it back loses nothing;
* `Bytes.toNat_lt`: a number is bounded by how many bytes it has;
* `Bytes.ofNat_add`: the leading bytes of a number stand in front of the rest;
* `Bytes.ofNat_inj`: numbers that fit are told apart by how they are written.
-/

namespace ModelPatch.Bytes

/-- Writing a number and reading it back loses nothing but what does not fit. -/
theorem toNat_ofNat (width n : Nat) : toNat (ofNat width n) = n % 256 ^ width := by
  induction width generalizing n with
  | zero => simp [ofNat, toNat, Nat.mod_one]
  | succ w ih =>
    rw [ofNat, toNat_append_singleton, ih, Nat.pow_succ, Nat.mul_comm (256 ^ w), Nat.mod_mul]
    simp only [UInt8.toNat_ofNat']
    omega

/-- Reading a number and writing it back loses nothing. -/
theorem ofNat_toNat (bytes : Bytes) : ofNat bytes.length (toNat bytes) = bytes := by
  induction bytes using List.reverseRecOn with
  | nil => rfl
  | append_singleton bytes b ih =>
    have hb : b.toNat < 256 := b.toNat_lt
    have hfront : (toNat bytes * 256 + b.toNat) / 256 = toNat bytes := by omega
    have hlast : UInt8.ofNat (toNat bytes * 256 + b.toNat) = b := by
      refine UInt8.toNat.inj ?_
      rw [UInt8.toNat_ofNat']
      omega
    rw [List.length_append, List.length_singleton, toNat_append_singleton, ofNat, hfront, hlast, ih]

/-- A number is bounded by how many bytes it has. -/
theorem toNat_lt (bytes : Bytes) : toNat bytes < 256 ^ bytes.length := by
  have hmod : toNat bytes % 256 ^ bytes.length = toNat bytes := by
    rw [← toNat_ofNat, ofNat_toNat]
  rw [← hmod]
  exact Nat.mod_lt _ (Nat.pow_pos (by decide))

/-- The leading bytes of a number stand in front of the rest. -/
theorem ofNat_add {width n : Nat} (front lead : Nat) (h : n < 256 ^ width) :
    ofNat (front + width) (lead * 256 ^ width + n) = ofNat front lead ++ ofNat width n := by
  induction width generalizing n with
  | zero =>
    obtain rfl : n = 0 := by simpa using h
    simp [ofNat]
  | succ w ih =>
    have hsplit : lead * 256 ^ (w + 1) = lead * 256 ^ w * 256 := by
      rw [Nat.pow_succ, Nat.mul_assoc]
    have hfront : (lead * 256 ^ (w + 1) + n) / 256 = lead * 256 ^ w + n / 256 := by omega
    have hlast : UInt8.ofNat (lead * 256 ^ (w + 1) + n) = UInt8.ofNat n := by
      refine UInt8.toNat.inj ?_
      rw [UInt8.toNat_ofNat', UInt8.toNat_ofNat']
      omega
    have hrest : n / 256 < 256 ^ w := by
      rw [Nat.pow_succ] at h
      exact Nat.div_lt_of_lt_mul (Nat.mul_comm _ _ ▸ h)
    rw [← Nat.add_assoc, ofNat, hfront, ih hrest, hlast, List.append_assoc]
    rfl

/-- Numbers that fit are told apart by how they are written. -/
theorem ofNat_inj {width m n : Nat} (hm : m < 256 ^ width) (hn : n < 256 ^ width)
    (h : ofNat width m = ofNat width n) : m = n := by
  have hread := congrArg toNat h
  rwa [toNat_ofNat, toNat_ofNat, Nat.mod_eq_of_lt hm, Nat.mod_eq_of_lt hn] at hread

end ModelPatch.Bytes

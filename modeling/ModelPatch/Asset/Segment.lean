import ModelPatch.Bytes.Basic

/-!
# The object segment

At run time an asset is mapped as segment 6, and whatever points into it holds a segment address:
the number of the segment in the highest byte and the offset in the three others.

## Main definitions

* `Segment.offset`: the offset in an address;
* `Segment.withoutTag`: an offset that may have been written as an address;
* `Segment.address?`: the address of an offset.
-/

namespace ModelPatch.Segment

/-- The number of the segment that holds the asset. -/
def id : Nat := 6

/-- The number of bytes in a segment: as many as three bytes can count. -/
def size : Nat := 0x1000000

/-- The offset in an address. -/
def offset (address : Nat) : Nat :=
  address % size

/-- An offset, which may be given as an address of the object segment. -/
def withoutTag (n : Nat) : Nat :=
  if n / size = id then offset n else n

/-- The address of an offset, if the offset lies in the segment. -/
def address? (offset : Int) : Option Nat :=
  if 0 ≤ offset ∧ offset < size then some (id * size + offset.toNat) else none

end ModelPatch.Segment

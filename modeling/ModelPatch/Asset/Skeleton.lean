import ModelPatch.Build
import ModelPatch.Asset.Segment

/-!
# The skeleton header

An asset holds the skeleton of a model with 21 limbs, 18 of which are drawn. The header of the
skeleton has twelve bytes: the address of a table of limb addresses, and the two counts, each in a
word whose first byte it fills. Nothing marks the header, so it is found by what it must satisfy:

* the two counts stand in it;
* the limb table lies in the asset at a multiple of eight;
* each of the 21 slots of the table is an address of the object segment;
* each limb lies in the asset at a multiple of eight, and its near and far display lists agree.

The first place that passes wins.

## Main definitions

* `Skeleton`: a header and where it stands;
* `Skeleton.examine?`: what speaks for or against a place;
* `Skeleton.find`, `Skeleton.locate`: the first header of an asset.

## Implementation notes

Every read is answered with `none` where it lies outside the asset. `examine?` is `none` only if it
made such a read, which its bounds checks are there to exclude.
-/

namespace ModelPatch

/-- A skeleton header and where it stands. -/
structure Skeleton where
  /-- The offset of the header. -/
  offset : Nat
  /-- The bytes of the header. -/
  header : Bytes
  deriving DecidableEq, Repr

namespace Skeleton

/-! ### Format -/

/-- The number of limbs. -/
def limbCount : Nat := 21

/-- The number of bytes in a header. -/
def headerSize : Nat := 12

/-- The two counts as they stand in a header, behind its first word. -/
def countPattern : Bytes := [0x15, 0, 0, 0, 0x12, 0, 0, 0]

/-- The number of bytes in a slot of the limb table. -/
def slotSize : Nat := 4

/-- The number of bytes in a limb table. -/
def tableSize : Nat := limbCount * slotSize

/-- The number of bytes in a limb. -/
def limbSize : Nat := 16

/-- The distance from a limb to its near display list. -/
def nearDistance : Nat := 8

/-- The distance from a limb to its far display list. -/
def farDistance : Nat := 12

/-! ### Examination -/

/-- Whether something of `size` bytes at `offset` lies in the asset, before its last byte, at a
multiple of eight. -/
def isPlaced (asset : Bytes) (offset size : Nat) : Bool :=
  offset + size < asset.length && offset % 8 == 0

/-- Whether the slot at `slot` holds the address of a limb; `none` if a read lies outside the
asset. -/
def isLimb? (asset : Bytes) (slot : Nat) : Option Bool := do
  let address ← Bytes.word? asset slot
  if address / Segment.size ≠ Segment.id then
    return false
  let limb := Segment.offset address
  if !isPlaced asset limb limbSize then
    return false
  let near ← Bytes.word? asset (limb + nearDistance)
  let far ← Bytes.word? asset (limb + farDistance)
  return near = far

/-- What an examination finds. -/
inductive Verdict
  /-- There is no room for a header. -/
  | noRoom
  /-- The limb table at `offset` is misplaced. -/
  | badTable (offset : Nat)
  /-- The slot of the limb with this index holds no limb. -/
  | badLimb (index : Nat)
  /-- All is well. -/
  | sound
  deriving DecidableEq, Repr

/-- The first of the limbs with the given indices that fails, in the table at `table`. -/
def examineLimbs? (asset : Bytes) (table : Nat) : List Nat → Option Verdict
  | [] => some .sound
  | index :: rest => do
    if ← isLimb? asset (table + index * slotSize) then
      examineLimbs? asset table rest
    else
      return .badLimb index

/-- What speaks for or against a header at `offset`; `none` if a read lies outside the asset. The
counts are not looked at. -/
def examine? (asset : Bytes) (offset : Int) : Option Verdict :=
  if offset < 0 ∨ asset.length < offset + headerSize then
    some .noRoom
  else do
    let table := Segment.offset (← Bytes.word? asset offset.toNat)
    if isPlaced asset table tableSize then
      examineLimbs? asset table (List.range limbCount)
    else
      return .badTable table

/-- What is reported about a place. -/
def report (offset : Int) : Verdict → Build Unit
  | .noRoom => pure ()
  | .badTable table =>
    Build.note .debug s!"Candidate {Hex.showInt offset}: bad limb table {Hex.showNat table}"
  | .badLimb index => Build.note .debug s!"Candidate {Hex.showInt offset}: limb {index} rejected"
  | .sound => pure ()

/-- Whether a header may stand at `offset`. The counts are not looked at. -/
def isHeader (asset : Bytes) (offset : Int) : Build Bool := do
  let verdict ← Build.need (.readOutside offset.toNat) (examine? asset offset)
  report offset verdict
  return verdict = .sound

/-! ### Search -/

/-- The places where the two counts stand as they would in a header, in ascending order. -/
def candidates (asset : Bytes) : List Nat :=
  (Bytes.positions countPattern asset).filterMap fun p => if 4 ≤ p then some (p - 4) else none

/-- The first of the given places at which a header stands. -/
def findAmong (asset : Bytes) : List Nat → Build (Option Nat)
  | [] => pure none
  | offset :: rest => do
    if ← isHeader asset offset then return some offset
    findAmong asset rest

/-- The first place at which a header stands. -/
def find (asset : Bytes) : Build (Option Nat) :=
  findAmong asset (candidates asset)

/-- The skeleton header of the asset called `name`. -/
def locate (name : String) (asset : Bytes) : Build Skeleton := do
  match ← find asset with
  | none =>
    Build.note .error s!"No 21-limb hierarchy in {name}"
    Build.fail (.missing (.skeleton name))
  | some offset =>
    Build.note .debug s!"Hierarchy header at {Hex.showNat offset}"
    return ⟨offset, (asset.drop offset).take headerSize⟩

/-! ### What a header says -/

/-- The number whose bytes start at `offset` of the header, which has `headerSize` bytes. -/
def field (s : Skeleton) (offset size : Nat) : Nat :=
  Bytes.toNat ((s.header.drop offset).take size)

/-- The offset of the limb table. -/
def tableOffset (s : Skeleton) : Nat :=
  Segment.offset (s.field 0 4)

/-- The number of limbs, as the header has it. -/
def limbs (s : Skeleton) : Nat :=
  s.field 4 1

/-- The number of limbs that are drawn, as the header has it. -/
def drawn (s : Skeleton) : Nat :=
  s.field 8 1

end Skeleton

end ModelPatch

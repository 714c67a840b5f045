import ModelPatch.Build
import ModelPatch.Cut
import ModelPatch.OrderedMap
import ModelPatch.Text.Utf8

/-!
# The display-list trailer

The exporter of a model appends a list of its display lists to the asset:

| offset | size | content                                                         |
| ------ | ---- | --------------------------------------------------------------- |
| `0x00` | 15   | the marker `!PlayAsManifest`                                    |
| `0x0F` | 1    | padding                                                         |
| `0x10` | 2    | the number of records                                           |
| `0x12` |      | the records: a name, a zero byte, and the offset in four bytes  |

The first marker in the asset counts. It and all that follows are cut off before the asset is
patched.

## Main definitions

* `Trailer`: the offsets of the display lists by name;
* `Trailer.find?`: where the trailer starts;
* `Trailer.parse`: the reading of the trailer of an asset;
* `Trailer.trim`: an asset without its trailer.

## Implementation notes

Whether a trailer is cut short is settled by lengths, before anything is read. The reads that follow
answer with `none` outside the bytes, and that would be a defect and not a refusal.
-/

namespace ModelPatch

/-- The offsets of display lists by name. -/
abbrev Trailer := OrderedMap Nat

namespace Trailer

/-- The bytes that start a trailer. -/
def marker : Bytes := Utf8.encode "!PlayAsManifest".toList

theorem length_marker : marker.length = 15 := by
  decide +kernel

/-- The distance from the marker to the number of records. -/
def countDistance : Nat := 0x10

/-- The distance from the marker to the records. -/
def recordsDistance : Nat := 0x12

/-- Where the trailer of an asset starts. -/
def find? (asset : Bytes) : Option Nat :=
  Bytes.firstPosition? marker asset

/-- The bytes of the next name and the bytes behind its end; `none` if these are too few for an
offset. -/
def cutName? (bytes : Bytes) : Option (Bytes × Bytes) :=
  (cutAt 0 bytes).filter fun p => 4 ≤ p.2.length

/-- The records in `bytes`, of which `remaining` are still to come, added to those that have been
read. -/
def records (asset : String) (declared : Nat) :
    (remaining : Nat) → Trailer → Bytes → Build Trailer
  | 0, seen, _ => pure seen
  | remaining + 1, seen, bytes =>
    match cutName? bytes with
    | none => Build.fail (.missing (.trailerRecords asset seen.size declared))
    | some (spelled, rest) => do
      let name := String.ofList (Utf8.decode spelled)
      let offset ← Build.need (.readOutside 0) (Bytes.word? rest 0)
      Build.note .debug s!"  {name} -> {Hex.showPadded offset}"
      records asset declared remaining (seen.insert name offset) (rest.drop 4)

/-- The trailer that starts at `start`. -/
def parseAt (name : String) (start : Nat) (asset : Bytes) : Build Trailer :=
  let place := start + countDistance
  if asset.length < place + 2 then
    Build.fail (.missing (.trailerCount name))
  else do
    let count ← Build.need (.readOutside place) (Bytes.half? asset place)
    Build.note .debug s!"Trailer at {Hex.showNat start} declares {count} display lists"
    records name count count .empty (asset.drop (start + recordsDistance))

/-- The trailer of the asset called `name`. -/
def parse (name : String) (asset : Bytes) : Build Trailer :=
  match find? asset with
  | none => do
    Build.note .error s!"No PlayAs trailer in {name}"
    Build.fail (.missing (.trailer name))
  | some start => parseAt name start asset

/-- The asset without its trailer. -/
def trim (asset : Bytes) : Bytes :=
  match find? asset with
  | none => asset
  | some start => asset.take start

/-- The asset without what follows `start`, where a negative number counts from the end; minus one
says that there is no trailer. -/
def trimAt (start : Int) (asset : Bytes) : Bytes :=
  if start = -1 then asset else Bytes.upTo asset start

end Trailer

end ModelPatch

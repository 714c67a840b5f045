import ModelPatch.Manifest.Section
import ModelPatch.Cut
import ModelPatch.Asset.Segment

/-!
# The object pool of a manifest

The object pool is a region of the asset that is given over to the calls of the manifest. Its
section declares where the region is and how large it is, and then lists the calls in groups, each
of which starts at a line with a colon, behind the label of the group. Blanks mean nothing in all
of this and are dropped first.

## Main definitions

* `Region`: where the pool is;
* `Group`, `PlacedCall`: the calls and where they stand;
* `Pool.parse`: the reading of the section.
-/

namespace ModelPatch

/-- A call as it is written. -/
structure PlacedCall where
  /-- The text of the call. -/
  text : List Char
  /-- The line it stands on. -/
  location : Location
  deriving DecidableEq, Repr

/-- A labelled run of calls. -/
structure Group where
  /-- The name under which the first byte of the group is known. -/
  label : String
  /-- The line of the label. -/
  location : Location
  /-- The calls. -/
  calls : List PlacedCall
  deriving DecidableEq, Repr

/-- Where the pool is. -/
structure Region where
  /-- The offset in the asset. -/
  offset : Nat
  /-- How many bytes the pool may fill. -/
  size : Nat
  deriving DecidableEq, Repr

/-- The object pool of a manifest. -/
structure Pool where
  /-- Where the pool is. -/
  region : Region
  /-- What goes into it. -/
  groups : List Group
  deriving DecidableEq, Repr

namespace Region

/-- The region that a declaration `offset=base,size` gives. The base stands in for an offset that is
left out. Either may be written as an address of the object segment. -/
def ofContent? (content : List Char) : Option Region := do
  let (left, rest) ← cutAt '=' (Text.dropBlanks content)
  let (middle, right) ← cutAt ',' rest
  let base ← (Hex.parse middle).toOption
  let size ← (Hex.parse right).toOption
  let offset ← if left.isEmpty then some base else (Hex.parse left).toOption
  return ⟨Segment.withoutTag offset, size⟩

/-- The region that the text of a declaration gives, which may have a location. -/
def parse (location : Option Location) (content : List Char) : Build Region :=
  match ofContent? content with
  | some region => pure region
  | none => Build.fail (.malformed .poolDeclaration) location

end Region

namespace Group

/-- The calls in a text without blanks, each of which ends at a semicolon. -/
def callsOf (location : Location) (text : List Char) : List PlacedCall :=
  ((text.splitOn ';').filter fun piece => !piece.isEmpty).map (⟨·, location⟩)

/-- The groups in the lines of a section, where `current` is the group that is open before the
first of them. -/
def collect (file : String) (current : Option Group) : List Line → Build (List Group)
  | [] => pure current.toList
  | l :: rest =>
    let text := Text.dropBlanks l.content
    let location := l.location file
    if text.isEmpty then
      collect file current rest
    else
      match cutAt ':' text, current with
      | some ([], _), _ => Build.fail (.malformed .unnamedGroup) (some location)
      | some (label, calls), _ => do
        let group : Group := ⟨String.ofList label, location, callsOf location calls⟩
        return current.toList ++ (← collect file (some group) rest)
      | none, some group =>
        collect file (some { group with calls := group.calls ++ callsOf location text }) rest
      | none, none => Build.fail (.malformed .unlabelledCall) (some location)

end Group

namespace Pool

/-- The declaration of a pool and the lines behind it. A header that is empty leaves the
declaration to the first line that is not. -/
def splitDeclaration (header : Line) (body : List Line) : Option (Line × List Line) :=
  if header.isEmpty then
    match body.dropWhile Line.isEmpty with
    | [] => none
    | first :: rest => some (first, rest)
  else
    some (header, body)

/-- The object pool that a section describes. -/
def parse (file : String) (header : Line) (body : List Line) : Build Pool := do
  match splitDeclaration header body with
  | none => Build.fail (.malformed .poolDeclaration) (some (header.location file))
  | some (declaration, rest) =>
    let region ← Region.parse (some (declaration.location file)) declaration.content
    Build.note .debug
      s!"Object pool at {Hex.showNat region.offset}, {Hex.showNat region.size} bytes"
    return ⟨region, ← Group.collect file none rest⟩

end Pool

end ModelPatch

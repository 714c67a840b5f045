import ModelPatch.Console.Request
import ModelPatch.Disk.Basic

/-!
# Hosts

The commands rely on a few things that they do not do themselves. The words of the command line are
read for them, and the paths among these are looked at. Their lines are printed for them, which can
fail. A path is given another name for them, and files are read and written for them. A host is
these things together. Nothing is said in its definition about what they do; what one may count on
is stated apart, so that a theorem tells which of it it needs.

## Main definitions

* `Host`: what a run relies on;
* `Host.print`: what becomes of lines that are printed one after another;
* `Host.PrintsAll`, `Host.PrintsPlainly`, `Host.Renames`: what one may count on.

## Implementation notes

How a name with slashes is taken as the last component of a path is not the same everywhere. A name
such as `a/.`, which leads to one component, is refused by some and taken by others, and
`Host.Renames` leaves this open.
-/

namespace ModelPatch

/-- Where a line is printed. -/
inductive Stream
  /-- The text for the reader. -/
  | output
  /-- What went wrong. -/
  | errors
  deriving DecidableEq, Repr

/-- What becomes of a line that is printed. -/
inductive Echo
  /-- It arrives as a text. -/
  | complete (text : String)
  /-- Printing it fails, and no more than this arrives. -/
  | brokenOff (text : String)
  deriving DecidableEq, Repr

/-- What a run relies on. -/
structure Host where
  /-- What the words of a command line ask for, or a complaint about them or about the paths that
  they name. -/
  request : (words : List String) → Except String Request
  /-- What becomes of a line that is printed after `k` others. -/
  echo : Stream → (k : Nat) → (line : String) → Echo
  /-- A path with another last component, unless this is refused. -/
  withName? : Path → (name : List Char) → Option Path
  /-- The files. -/
  disk : Disk

/-- What becomes of some lines. -/
structure Printed where
  /-- The text that arrives. -/
  text : String
  /-- The line at which printing fails. -/
  failed? : Option String
  deriving DecidableEq, Repr

namespace Host

/-- What becomes of lines that are printed one after another, behind `k` others. The first line that
fails is the last that is tried. -/
def print (host : Host) (stream : Stream) (k : Nat) : (lines : List String) → Printed
  | [] => ⟨"", none⟩
  | line :: rest =>
    match host.echo stream k line with
    | .complete text =>
      let behind := print host stream (k + 1) rest
      ⟨text ++ behind.text, behind.failed?⟩
    | .brokenOff text => ⟨text, some line⟩

/-! ### What one may count on -/

/-- A line that arrives does so with a line feed behind it, and unchanged if it holds no escape
character, which would start a terminal command. -/
def PrintsPlainly (host : Host) : Prop :=
  ∀ stream k line text, '\x1B' ∉ line.toList → host.echo stream k line = .complete text →
    text = line ++ "\n"

/-- What one may count on when the last component of a path is replaced. -/
structure Renames (host : Host) : Prop where
  /-- A path that has a last component takes any name without slashes, but for the one that stands
  for the directory itself. -/
  plain : ∀ (path : Path) (name : List Char), path.parts ≠ [] → name ≠ [] → name ≠ ['.'] →
    '/' ∉ name → host.withName? path name = some ⟨path.root, path.parts.dropLast ++ [name]⟩
  /-- A name that ends with a slash, or that leads through more than one component, is refused. -/
  slashed : ∀ (path : Path) (name : List Char),
    name.getLast? = some '/' ∨ 2 ≤ (Path.components name).length → host.withName? path name = none

end Host

end ModelPatch

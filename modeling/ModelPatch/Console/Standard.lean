import ModelPatch.Console.Arguments
import ModelPatch.Console.Host
import ModelPatch.Console.TerminalText

/-!
# The standard host

The program runs on a host that reads words by the usual rules, prints every line without terminal
commands, and gives a path no name with a slash.

## Main definitions

* `Path.rename?`: a path with another last component;
* `Host.standard`: the host, over some files.
-/

namespace ModelPatch

/-- The path with another last component. There must be one already, and the new one must be a name
without slashes that means something. -/
def Path.rename? (path : Path) (name : List Char) : Option Path :=
  if path.parts = [] ∨ name = [] ∨ name = ['.'] ∨ '/' ∈ name then none
  else some ⟨path.root, path.parts.dropLast ++ [name]⟩

/-- The standard host, over files of which `status?` tells what can be learned without opening
them. -/
def Host.standard (status? : String → Option FileStatus) (disk : Disk) : Host where
  request words := (Request.read status? words).mapError UsageError.message
  echo _ _ line := .complete (Text.printed line)
  withName? := Path.rename?
  disk

end ModelPatch

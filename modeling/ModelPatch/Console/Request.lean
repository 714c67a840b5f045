/-!
# Requests

The words of a command line ask for one of a few things. How words are read is no part of this: the
commands only see what they are asked to do.

## Main definitions

* `Task`: what a command is asked to do;
* `Request`: what the program is asked to do.
-/

namespace ModelPatch

/-- What a command is asked to do. -/
inductive Task
  /-- Write the patched asset. -/
  | build (manifest asset : String) (output name : Option String)
  /-- List the symbols. -/
  | dictionary (manifest asset : String)
  /-- Show the alias table. -/
  | table (manifest asset : String)
  /-- List the display lists of an asset. -/
  | trailer (asset : String)
  /-- Show the skeleton header of an asset. -/
  | skeleton (asset : String)
  deriving DecidableEq, Repr

/-- What the program is asked to do. -/
inductive Request
  /-- Say what is known before any command is carried out: how the program is used, or which version
  of it this is. -/
  | answer (lines : List String)
  /-- Carry out a command. -/
  | run (verbose : Bool) (task : Task)
  deriving DecidableEq, Repr

end ModelPatch

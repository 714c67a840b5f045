import ModelPatch.Bytes.Basic
import ModelPatch.Disk.Path

/-!
# Disks

A run of the command line reads a few files and writes at most one. A disk is what becomes of this.

## Main definitions

* `DiskError`: why a file cannot be used;
* `Writing`: what becomes of writing a file;
* `Disk`: what becomes of reading and writing files;
* `Disk.HasRoom`: no writing fails halfway.
-/

namespace ModelPatch

/-- The reasons why a file cannot be used. -/
inductive DiskReason
  /-- There is nothing under the path. -/
  | notFound
  /-- The file may not be used. -/
  | denied
  /-- A component in the middle of the path is a file. -/
  | notADirectory
  /-- There is a directory under the path. -/
  | isADirectory
  /-- A component is too long. -/
  | nameTooLong
  /-- Any other reason, with its number and wording. -/
  | other (code : Nat) (wording : String)
  deriving DecidableEq, Repr

namespace DiskReason

/-- The number of a reason. -/
def code : DiskReason → Nat
  | notFound => 2
  | denied => 13
  | notADirectory => 20
  | isADirectory => 21
  | nameTooLong => 36
  | other code _ => code

/-- Whether the reason is that there is no such file or that it may not be used. For the latter there
are two numbers: 13, and 1 for an operation that is not permitted. -/
def isUnavailable (r : DiskReason) : Bool :=
  r.code = 2 || r.code = 13 || r.code = 1

/-- The wording of a reason. -/
def wording : DiskReason → String
  | notFound => "No such file or directory"
  | denied => "Permission denied"
  | notADirectory => "Not a directory"
  | isADirectory => "Is a directory"
  | nameTooLong => "File name too long"
  | other _ wording => wording

end DiskReason

/-- Why a file cannot be used. -/
inductive DiskError
  /-- The reason and the path. -/
  | at (reason : DiskReason) (path : Path)
  /-- The reason, in the words of the text. -/
  | described (reason : DiskReason) (text : String)
  deriving DecidableEq, Repr

namespace DiskError

/-- The reason of an error. -/
def reason : DiskError → DiskReason
  | .at reason _ => reason
  | described reason _ => reason

/-- The wording of an error. -/
def message : DiskError → String
  | .at reason path =>
    s!"[Errno {reason.code}] {reason.wording}: " ++ Text.quoted path.text.toList
  | described _ text => text

end DiskError

/-! ### Files -/

/-- What there is under a path. -/
inductive NodeKind
  | file
  | directory
  deriving DecidableEq, Repr

/-- What can be learned about a path without opening it. -/
structure FileStatus where
  /-- What there is. -/
  kind : NodeKind
  /-- Whether it may be read. -/
  readable : Bool
  deriving DecidableEq, Repr

/-- What becomes of writing a file. To open a file for writing creates or empties it, so that
writing which fails behind this point leaves something else than was there before. -/
inductive Writing
  /-- The file holds what was written. -/
  | done
  /-- The file cannot be opened, and all stays as it was. -/
  | refused (error : DiskError)
  /-- The file is open when writing fails, and holds what is left. -/
  | brokenOff (left : Bytes) (error : DiskError)
  deriving DecidableEq, Repr

namespace Writing

/-- Why writing fails. -/
def error? : Writing → Option DiskError
  | done => none
  | refused error => some error
  | brokenOff _ error => some error

/-- What a file holds after `content` was written to it, unless the file was not touched. -/
def left? (content : Bytes) : Writing → Option Bytes
  | done => some content
  | refused _ => none
  | brokenOff left _ => some left

end Writing

/-- What a run finds when it asks for files. -/
structure Disk where
  /-- The contents of a file. -/
  read : Path → Except DiskError Bytes
  /-- What becomes of writing contents to a file. -/
  write : Path → Bytes → Writing

end ModelPatch

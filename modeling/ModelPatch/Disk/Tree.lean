import ModelPatch.Disk.Basic
import ModelPatch.Text.Utf8

/-!
# File trees

A file tree is a disk that is given by its files and directories. Paths start at its root. A path
may climb above the root, where there are directories but nothing else; a file that is written there
is no part of the tree.

## Main definitions

* `FileTree`: files and directories;
* `Place`, `Place.parent`: the places that a path leads to, above the root as well as below;
* `FileTree.walk`: what there is under a path;
* `FileTree.diskWith`, `FileTree.disk`: the tree as a disk, with or without failures;
* `FileTree.write`, `FileTree.changes`: the tree after a file was written, and what differs.
-/

namespace ModelPatch

/-- The place of a file or directory: the names that lead to it from the root of a tree. Each step
up from the root is written as two points. -/
abbrev Place := List (List Char)

namespace Place

/-- The name that stands for the directory above. -/
def stepUp : List Char := ['.', '.']

/-- Whether a place is the root of the tree or lies straight above it. -/
def isAscent (place : Place) : Bool :=
  place.all (· = stepUp)

/-- Whether a place is in the tree. -/
def isInside (place : Place) : Bool :=
  place.head? ≠ some stepUp

/-- The directory above a place. -/
def parent (place : Place) : Place :=
  if place.isAscent then stepUp :: place else place.dropLast

end Place

/-- Files and directories. -/
structure FileTree where
  /-- The files and their contents. -/
  files : List (Place × Bytes)
  /-- Directories. Those that hold a file are directories without being listed here. -/
  directories : List Place
  deriving DecidableEq, Repr

/-- What a path leads to. -/
inductive Node
  /-- A directory. -/
  | directory (place : Place)
  /-- A file. -/
  | file (place : Place) (content : Bytes)
  /-- Nothing, in a directory that is there. -/
  | absent (place : Place)
  deriving DecidableEq, Repr

namespace FileTree

/-- Whether there is a directory at a place. -/
def isDirectory (t : FileTree) (place : Place) : Bool :=
  place.isAscent || t.directories.any place.isPrefixOf ||
    t.files.any fun f => place.isPrefixOf f.1 && place.length < f.1.length

/-- The contents of the file at a place. -/
def file? (t : FileTree) (place : Place) : Option Bytes :=
  t.files.lookup place

/-- The most bytes that a name may have. -/
def longestName : Nat := 255

/-- What the rest of a path leads to from the directory at a place. -/
def walk (t : FileTree) (place : Place) : Place → Except DiskReason Node
  | [] => .ok (.directory place)
  | name :: rest =>
    if name = [] ∨ name = ['.'] then t.walk place rest
    else if name = Place.stepUp then t.walk place.parent rest
    else if longestName < (Utf8.encode name).length then .error .nameTooLong
    else
      let next := place ++ [name]
      if t.isDirectory next then t.walk next rest
      else match t.file? next with
        | some content => if rest.isEmpty then .ok (.file next content) else .error .notADirectory
        | none => if rest.isEmpty then .ok (.absent next) else .error .notFound

/-- What a path, taken as it was written, leads to. -/
def node (t : FileTree) (path : List Char) : Except DiskReason Node :=
  if path.isEmpty ∨ path.head? = some '/' then .error .notFound
  else t.walk [] (path.splitOn '/')

/-- What can be learned about a path, where everything may be read. -/
def status? (t : FileTree) (path : String) : Option FileStatus :=
  match t.node path.toList with
  | .ok (.directory _) => some ⟨.directory, true⟩
  | .ok (.file _ _) => some ⟨.file, true⟩
  | _ => none

/-- The contents of a file. -/
def read (t : FileTree) (path : Path) : Except DiskError Bytes :=
  match t.node path.text.toList with
  | .ok (.file _ content) => .ok content
  | .ok (.directory _) => .error (.at .isADirectory path)
  | .ok (.absent _) => .error (.at .notFound path)
  | .error reason => .error (.at reason path)

/-- The place that writing a file changes. -/
def target (t : FileTree) (path : Path) : Except DiskError Place :=
  match t.node path.text.toList with
  | .ok (.file place _) => .ok place
  | .ok (.absent place) => .ok place
  | .ok (.directory _) => .error (.at .isADirectory path)
  | .error reason => .error (.at reason path)

/-- The tree as a disk on which writing to an open file may fail: `fails?` says what is then left in
the file, and why. -/
def diskWith (t : FileTree) (fails? : Place → Bytes → Option (Bytes × DiskError)) : Disk where
  read := t.read
  write path content :=
    match t.target path with
    | .error e => .refused e
    | .ok place =>
      match fails? place content with
      | none => .done
      | some (left, e) => .brokenOff left e

/-- The tree as a disk with room for everything. -/
def disk (t : FileTree) : Disk :=
  t.diskWith fun _ _ => none

/-- The tree in which a file holds some content. A file that cannot be opened changes nothing, and
neither does one outside of the tree. -/
def write (t : FileTree) (path : Path) (content : Bytes) : FileTree :=
  match t.target path with
  | .ok place =>
    if place.isInside then
      { t with files := (place, content) :: t.files.filter (·.1 ≠ place) }
    else t
  | .error _ => t

/-- The files of `after` that are not in `before`, or have other contents there. -/
def changes (before after : FileTree) : List (Place × Bytes) :=
  after.files.filter fun f => before.file? f.1 ≠ some f.2

end FileTree

end ModelPatch

import ModelPatch.Text.Quoted

/-!
# Paths

A path is shown, and its name is taken apart, in a normal form: without empty components and
without components that stand for the directory they are in.

## Main definitions

* `Path`: a path in normal form;
* `Path.ofText`, `Path.text`: paths as text;
* `Path.normal`: the path that the text of a path leads to;
* `Path.name`, `Path.stem`: the last component.
-/

namespace ModelPatch

/-- A path in normal form. -/
structure Path where
  /-- The slashes at the start: none, one or two. -/
  root : List Char
  /-- The components. -/
  parts : List (List Char)
  deriving DecidableEq, Repr

namespace Path

/-- The components of a text that mean something. -/
def components (text : List Char) : List (List Char) :=
  (text.splitOn '/').filter fun part => !(part = [] || part = ['.'])

/-- The slashes that a path keeps at its start. Exactly two slashes differ from one, and any
other number does not. -/
def rootOf (text : List Char) : List Char :=
  match (text.takeWhile (· = '/')).length with
  | 0 => []
  | 2 => ['/', '/']
  | _ => ['/']

/-- The normal form of a path. -/
def ofText (text : String) : Path :=
  ⟨rootOf text.toList, components text.toList⟩

/-- The text of a path. The empty path is the current directory. -/
def text (p : Path) : String :=
  if p.root.isEmpty && p.parts.isEmpty then "."
  else String.ofList (p.root ++ ['/'].intercalate p.parts)

/-- The normal form of a path whose last component may have been replaced by a text with slashes. -/
def normal (p : Path) : Path :=
  ofText p.text

/-- The last component, which is empty if there is none. -/
def nameChars (p : Path) : List Char :=
  p.parts.getLast?.getD []

/-- The last component, as text. -/
def name (p : Path) : String :=
  String.ofList p.nameChars

/-- A name without its ending. The ending starts at the last point, which must be neither the first
nor the last character of the name. -/
def stemOf (name : List Char) : List Char :=
  let tail := (name.reverse.takeWhile (· ≠ '.')).reverse
  let front := name.take (name.length - tail.length - 1)
  if tail.isEmpty || front.isEmpty then name else front

/-- The last component without its ending. -/
def stem (p : Path) : List Char :=
  stemOf p.nameChars

/-- The wording about a name that is refused as a last component. -/
def unnamableMessage (name : List Char) : String :=
  "Invalid name " ++ Text.quoted name

end Path

end ModelPatch

import ModelPatch.Error

/-!
# Manifest lines

A manifest is text. Its lines are read without comments and without the blanks around them, and
they keep their numbers, because errors name them.

## Main definitions

* `Line`: a line with its number;
* `Line.ofText`: the lines of a text.
-/

namespace ModelPatch

/-- A line of a manifest. -/
structure Line where
  /-- The text of the line. -/
  content : List Char
  /-- Its number. -/
  number : Int
  deriving DecidableEq, Repr

namespace Line

/-- The part of a line in front of the first double slash. -/
def beforeComment : List Char → List Char
  | '/' :: '/' :: _ => []
  | c :: cs => c :: beforeComment cs
  | [] => []

/-- A line without its comment and without the blanks around the rest. -/
def clean (cs : List Char) : List Char :=
  Text.strip (beforeComment cs)

/-- The lines of a text, cleaned and numbered from one. A line ends at a line feed. A carriage
return in front of it is a blank at the end of the line, or part of its comment, and so is gone
from the cleaned line. -/
def ofText (text : List Char) : List Line :=
  ((text.splitOn '\n').zipIdx 1).map fun p => ⟨clean p.1, p.2⟩

/-- Whether nothing is left of a line. -/
def isEmpty (l : Line) : Bool :=
  l.content.isEmpty

/-- Where a line stands. -/
def location (file : String) (l : Line) : Location :=
  ⟨file, l.number⟩

end Line

end ModelPatch

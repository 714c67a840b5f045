import ModelPatch.Build
import ModelPatch.Cut

/-!
# Calls

A call in the object pool is the name of a function with its arguments in parentheses.

## Main definitions

* `Call`: a call;
* `Call.parse`: the reading of the text of a call;
* `Call.text`: a call as it is written.
-/

namespace ModelPatch

/-- A call of a pool function. -/
structure Call where
  /-- The name of the function. -/
  function : String
  /-- The arguments. -/
  arguments : List (List Char)
  deriving DecidableEq, Repr

namespace Call

/-- The arguments in the text between the parentheses. -/
def argumentsOf (inner : List Char) : List (List Char) :=
  let stripped := Text.strip inner
  if stripped.isEmpty then [] else (stripped.splitOn ',').map Text.strip

/-- The call in a text with one pair of parentheses, behind which only blanks may stand. -/
def ofText? (text : List Char) : Option Call := do
  let (function, rest) ← cutAt '(' text
  let (inner, tail) ← cutAt ')' rest
  if ')' ∈ function ∨ '(' ∈ rest ∨ !(Text.strip tail).isEmpty then
    none
  else
    some ⟨String.ofList (Text.strip function), argumentsOf inner⟩

/-- The call that a text spells. -/
def parse (text : List Char) : Build Call :=
  match ofText? (Text.strip text) with
  | some call => pure call
  | none => Build.fail (.malformed (.parentheses (String.ofList (Text.strip text))))

/-- A call as it is written. -/
def text (c : Call) : String :=
  c.function ++ "(" ++ ", ".intercalate (c.arguments.map String.ofList) ++ ")"

end Call

end ModelPatch

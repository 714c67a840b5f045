import ModelPatch.OrderedMap
import ModelPatch.Manifest.Section

/-!
# The dictionary of a manifest

Every line of the dictionary defines a name: either at once, by an offset, or as an alias of a
display list that the trailer of the asset may hold. Lines of the second sort begin with `DL_`.

## Main definitions

* `Entry`: what a dictionary line says;
* `Entry.ofLine`: the reading of a line;
* `Dictionary`, `Dictionary.parse`: all lines together.

## Main results

* `Dictionary.result_report`: a report about an entry does not fail;
* `Dictionary.result_refuse`: what a line is refused for, and where.
-/

namespace ModelPatch

/-- What a dictionary line says. -/
inductive Entry
  /-- The name stands for an offset. -/
  | literal (name : String) (offset : Nat)
  /-- The name stands for the display list that the trailer calls `quoted`. -/
  | bankAlias (quoted name : String)
  deriving DecidableEq, Repr

namespace Entry

/-- What the name of a bank alias begins with. -/
def bankMark : List Char := "DL_".toList

/-- A bank alias: a name, one word about the bank, and a quoted name that may hold spaces. -/
def bankAliasOfWords (words : List (List Char)) : Except Malformed Entry :=
  match words with
  | name :: _ :: quoted@(_ :: _) =>
    match ([' '].intercalate quoted).splitOn '"' with
    | [_, inner, _] => .ok (.bankAlias (String.ofList inner) (String.ofList name))
    | _ => .error .aliasQuotes
  | _ => .error .aliasName

/-- A literal entry: a name and its offset. -/
def literalOfWords (words : List (List Char)) : Except Malformed Entry :=
  match words with
  | [name, value] =>
    match Hex.parse value with
    | .ok offset => .ok (.literal (String.ofList name) offset)
    | .error _ => .error (.entryOffset (String.ofList name) (String.ofList value))
  | _ => .error .entry

/-- What the text of a line says. -/
def ofContent (content : List Char) : Except Malformed Entry :=
  let words := Text.words content
  if bankMark.isPrefixOf content then bankAliasOfWords words else literalOfWords words

end Entry

/-- The names that a manifest defines. -/
structure Dictionary where
  /-- The names that stand for offsets. -/
  entries : OrderedMap Nat
  /-- The names that stand for display lists, by what the trailer calls these. -/
  bankAliases : OrderedMap String
  deriving DecidableEq

namespace Dictionary

/-- The dictionary without lines. -/
def empty : Dictionary :=
  ⟨.empty, .empty⟩

/-- The dictionary with one more entry. The last entry of a name, or of a quoted name, wins. -/
def add (d : Dictionary) : Entry → Dictionary
  | .literal name offset => { d with entries := d.entries.insert name offset }
  | .bankAlias quoted name => { d with bankAliases := d.bankAliases.insert quoted name }

/-- What is reported about an entry at `location` that is added to `d`. -/
def report (d : Dictionary) (location : Location) : Entry → Build Unit
  | .literal name _ =>
    if d.entries.contains name then
      Build.note .warning s!"{location.text}: '{name}' redefined"
    else
      pure ()
  | .bankAlias quoted name => Build.note .debug s!"Bank alias '{quoted}' -> {name}"

theorem result_report (d : Dictionary) (location : Location) (entry : Entry) :
    (d.report location entry).result = .ok () := by
  cases entry with
  | literal name offset =>
    rw [report]
    split <;> rfl
  | bankAlias quoted name => rfl

/-- The refusal of a line. -/
def refuse {α : Type} (location : Location) (fault : Malformed) : Build α := do
  if let .entryOffset name value := fault then
    Build.note .error s!"Cannot parse offset '{value}' for {name}"
  Build.fail (.malformed fault) (some location)

theorem result_refuse {α : Type} (location : Location) (fault : Malformed) :
    (refuse location fault : Build α).result =
      .error (.refused ⟨.malformed fault, some location⟩) := by
  cases fault <;> rfl

/-- The dictionary with one more line. -/
def addLine (file : String) (d : Dictionary) (l : Line) : Build Dictionary :=
  if l.isEmpty then
    pure d
  else
    match Entry.ofContent l.content with
    | .ok entry => do
      d.report (l.location file) entry
      return d.add entry
    | .error fault => refuse (l.location file) fault

/-- The dictionary that the lines of a section define. -/
def parse (file : String) (lines : List Line) : Build Dictionary :=
  lines.foldlM (addLine file) empty

end Dictionary

end ModelPatch

import ModelPatch.Manifest.Dictionary
import ModelPatch.Manifest.Pool
import ModelPatch.Text.Utf8

/-!
# Manifests

A manifest has a dictionary section and an object pool section, in any order and with anything
around them.

## Main definitions

* `Manifest`: the contents of a manifest;
* `Manifest.parse`: the reading of its text;
* `Manifest.Source`: a manifest that is given as text or as bytes.
-/

namespace ModelPatch

/-- The contents of a manifest. -/
structure Manifest where
  /-- The name of the manifest, for messages. -/
  file : String
  /-- The names it defines. -/
  dictionary : Dictionary
  /-- The calls it lists. -/
  pool : Pool
  deriving DecidableEq

namespace Manifest

/-- The name of a manifest that has none. -/
def defaultFile : String := "<manifest>"

/-- A manifest before it is read. -/
inductive Source
  /-- Text. -/
  | text (content : List Char)
  /-- Bytes, which are UTF-8. -/
  | bytes (content : Bytes)
  deriving DecidableEq, Repr

/-- The text of a manifest. -/
def Source.decode : Source → List Char
  | text content => content
  | bytes content => Utf8.decode content

/-- The lines of the dictionary: a header that is not empty is the first of them. -/
def dictionaryLines (s : Section) : List Line :=
  if s.header.isEmpty then s.body else s.header :: s.body

/-- The contents of a manifest, from its lines. -/
def ofLines (file : String) (lines : List Line) : Build Manifest := do
  let names ← Section.find file Section.dictionaryKeyword lines
  let dictionary ← Dictionary.parse file (dictionaryLines names)
  let calls ← Section.find file Section.poolKeyword lines
  let pool ← Pool.parse file calls.header calls.body
  Build.note .debug <|
    s!"{file}: {dictionary.entries.size} entries, {dictionary.bankAliases.size} bank aliases, " ++
      s!"{pool.groups.length} pool entries"
  return ⟨file, dictionary, pool⟩

/-- The contents of a manifest. -/
def parse (file : String) (source : Source) : Build Manifest :=
  ofLines file (Line.ofText source.decode)

end Manifest

end ModelPatch

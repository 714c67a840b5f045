import ModelPatch.Build
import ModelPatch.Manifest.Line

/-!
# Manifest sections

A section starts at a line that begins with its keyword and ends at the next line that says `END`.
What stands behind the keyword on its own line is the header of the section.

## Main definitions

* `Section`: a section of a manifest;
* `Section.find`: the first section with a keyword.
-/

namespace ModelPatch

/-- A section of a manifest. -/
structure Section where
  /-- The keyword line without the keyword. -/
  header : Line
  /-- The lines between the keyword line and the end. -/
  body : List Line
  deriving DecidableEq, Repr

namespace Section

/-- The keyword of the section that defines names. -/
def dictionaryKeyword : String := "DICTIONARY"

/-- The keyword of the section that holds calls. -/
def poolKeyword : String := "OBJECT POOL"

/-- The line that ends a section. -/
def isEnd (l : Line) : Bool :=
  l.content = "END".toList

/-- The first section with a keyword. -/
def find (file keyword : String) (lines : List Line) : Build Section :=
  let starts := fun l : Line => keyword.toList.isPrefixOf l.content
  match lines.dropWhile fun l => !starts l with
  | [] => Build.fail (.missing (.section keyword file))
  | first :: rest =>
    if rest.any isEnd then
      pure {
        header := ⟨Text.strip (first.content.drop keyword.length), first.number⟩
        body := rest.takeWhile fun l => !isEnd l }
    else
      Build.fail (.missing (.sectionEnd keyword)) (some (first.location file))

end Section

end ModelPatch

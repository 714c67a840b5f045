/-!
# Blank characters

Manifests are free with white space, and they may hold any of the blanks that Unicode knows. This
file says which characters are blank and how text is cut along them.

## Main definitions

* `isBlank`, `isPlainBlank`: the white space of a manifest, and of a number;
* `Text.strip`: a text without the blanks at either end;
* `Text.dropBlanks`: a text without any blank;
* `Text.words`: the runs of characters between blanks.
-/

namespace ModelPatch

/-- The white space of a manifest: the line and tab controls, the four separator controls, the
space, and the spaces and separators beyond ASCII. -/
def isBlank (c : Char) : Bool :=
  let n := c.toNat
  (0x09 ≤ n && n ≤ 0x0D) || (0x1C ≤ n && n ≤ 0x20) || n == 0x85 || n == 0xA0 || n == 0x1680 ||
    (0x2000 ≤ n && n ≤ 0x200A) || n == 0x2028 || n == 0x2029 || n == 0x202F || n == 0x205F ||
    n == 0x3000

/-- The six blanks that may stand around a number. The separator controls are not among them. -/
def isPlainBlank (c : Char) : Bool :=
  let n := c.toNat
  (0x09 ≤ n && n ≤ 0x0D) || n == 0x20

namespace Text

/-! ### Trimming -/

/-- The text without the characters of `p` at its end. -/
def trimEnd (p : Char → Bool) : List Char → List Char
  | [] => []
  | c :: cs =>
    match trimEnd p cs with
    | [] => if p c then [] else [c]
    | d :: ds => c :: d :: ds

/-- The text without the characters of `p` at either end. -/
def trim (p : Char → Bool) (cs : List Char) : List Char :=
  trimEnd p (cs.dropWhile p)

/-- The text without the blanks at either end. -/
def strip (cs : List Char) : List Char :=
  trim isBlank cs

/-- The text with every blank removed. -/
def dropBlanks (cs : List Char) : List Char :=
  cs.filter fun c => !isBlank c

/-! ### Words -/

/-- The non-empty runs of characters between blanks, in order. -/
def words (cs : List Char) : List (List Char) :=
  (cs.splitOnP isBlank).filter fun w => !w.isEmpty

end Text

end ModelPatch

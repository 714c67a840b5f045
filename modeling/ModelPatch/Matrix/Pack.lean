import ModelPatch.Bytes.Basic
import ModelPatch.Text.Quoted
import ModelPatch.Matrix.Transform

/-!
# Packed matrices

A matrix is stored in 64 bytes: first the upper halves of its sixteen fixed-point elements, row by
row, and then the lower halves in the same order. The halves of two neighbours in a row share a
word.

## Main definitions

* `upperWord`, `lowerWord`: the words of two elements;
* `Grid.pack`: the bytes of a matrix;
* `Transform.parse`, `Transform.encode`: a transform from the texts of its nine numbers, and its
  bytes.
-/

namespace ModelPatch

namespace MatrixFault

/-- The wording of a fault. -/
def message : MatrixFault → String
  | notANumber argument => "could not convert string to float: " ++ Text.quoted argument
  | infiniteAngle => "math domain error"
  | unscalable element => s!"cannot convert {element.text} to fixed point"

end MatrixFault

/-! ### Words -/

/-- The word of the upper halves of two elements. -/
def upperWord (a b : BitVec 32) : BitVec 32 :=
  (a &&& 0xFFFF0000) ||| (b >>> 16)

/-- The word of the lower halves of two elements. -/
def lowerWord (a b : BitVec 32) : BitVec 32 :=
  ((a <<< 16) &&& 0xFFFF0000) ||| (b &&& 0xFFFF)

/-- The words of elements that are taken two by two. -/
def pairWords (word : BitVec 32 → BitVec 32 → BitVec 32) : List (BitVec 32) → List (BitVec 32)
  | a :: b :: rest => word a b :: pairWords word rest
  | _ => []

/-- The bytes of fixed-point elements: the words of all upper halves, and then those of all lower
halves. -/
def packElements (elements : List (BitVec 32)) : Bytes :=
  (pairWords upperWord elements ++ pairWords lowerWord elements).flatMap fun word =>
    Bytes.ofNat 4 word.toNat

/-! ### Matrices -/

/-- The bytes of a matrix, unless an element has no fixed-point pattern. -/
def Grid.pack (g : Grid Binary64) : Except MatrixFault Bytes :=
  (g.elements.mapM FixedPoint.ofBinary64).map packElements

namespace Transform

/-- The number that the text of an argument spells. -/
def argument (text : List Char) : Except MatrixFault Float :=
  match Decimal.parse? text with
  | some d => .ok d.toFloat
  | none => .error (.notANumber text)

/-- The transform that nine arguments give, in the order of its fields. -/
def parse (arguments : Vector (List Char) 9) : Except MatrixFault Transform := do
  let v ← arguments.mapM argument
  return ⟨v[0], v[1], v[2], v[3], v[4], v[5], v[6], v[7], v[8]⟩

/-- The bytes of the matrix of a transform. -/
def encode (t : Transform) : Except MatrixFault Bytes := do
  (← t.matrix).mapElements Binary64.ofFloat |>.pack

end Transform

end ModelPatch

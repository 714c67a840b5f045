import ModelPatch.Matrix.FixedPoint
import ModelPatch.Numeral.Decimal

/-!
# Transforms

The matrix of a limb turns, moves and scales it. It is given by three angles in degrees, and
by a shift and a scale for each axis. Its rows are the images of the axes, followed by the shift.

## Main definitions

* `Grid`: four rows of four elements;
* `Transform`: the nine numbers that give a matrix;
* `Transform.matrix`: the matrix.
-/

namespace ModelPatch

/-- Four rows of four elements. -/
abbrev Grid (α : Type) := Vector (Vector α 4) 4

/-- The elements of a grid, row by row. -/
def Grid.elements {α : Type} (g : Grid α) : List α :=
  g.toList.flatMap Vector.toList

/-- The grid with every element replaced by its image. -/
def Grid.mapElements {α β : Type} (f : α → β) (g : Grid α) : Grid β :=
  g.map fun row => row.map f

/-- Rotation, shift and scale. -/
structure Transform where
  /-- The rotation around the first axis, in degrees. -/
  roll : Float
  /-- The rotation around the second axis, in degrees. -/
  pitch : Float
  /-- The rotation around the third axis, in degrees. -/
  heading : Float
  /-- The shift along the first axis. -/
  x : Float
  /-- The shift along the second axis. -/
  y : Float
  /-- The shift along the third axis. -/
  z : Float
  /-- The scale of the first axis. -/
  scaleX : Float
  /-- The scale of the second axis. -/
  scaleY : Float
  /-- The scale of the third axis. -/
  scaleZ : Float

namespace Transform

/-- One degree in radians. -/
def degree : Float := 3.141592653589793 / 180

/-- The sine and the cosine of an angle in radians, which must not be infinite. -/
def sineCosine (angle : Float) : Except MatrixFault (Float × Float) :=
  if angle.isInf then .error .infiniteAngle else .ok (angle.sin, angle.cos)

/-- The matrix of a transform. The order of the operations fixes how the elements are rounded. -/
def matrix (t : Transform) : Except MatrixFault (Grid Float) := do
  let (sinR, cosR) ← sineCosine (t.roll * degree)
  let (sinP, cosP) ← sineCosine (t.pitch * degree)
  let (sinH, cosH) ← sineCosine (t.heading * degree)
  return #v[
    #v[(cosP * cosH) * t.scaleX,
       (cosP * sinH) * t.scaleX,
       (-sinP) * t.scaleX,
       0.0],
    #v[(sinR * sinP * cosH - cosR * sinH) * t.scaleY,
       (sinR * sinP * sinH + cosR * cosH) * t.scaleY,
       (sinR * cosP) * t.scaleY,
       0.0],
    #v[(cosR * sinP * cosH + sinR * sinH) * t.scaleZ,
       (cosR * sinP * sinH - sinR * cosH) * t.scaleZ,
       (cosR * cosP) * t.scaleZ,
       0.0],
    #v[t.x, t.y, t.z, 1.0]]

end Transform

end ModelPatch

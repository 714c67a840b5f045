import ModelPatch.Asset.Segment
import ModelPatch.Bytes.Hex
import ModelPatch.Command.Basic
import ModelPatch.Command.Call
import ModelPatch.Matrix.Pack
import ModelPatch.Symbols.Table

/-!
# Compiling calls

There are five pool functions:

| call                                       | bytes                                 |
| ------------------------------------------ | ------------------------------------- |
| `CallList(name)`                           | run the display list at the name      |
| `CallMatrix(name)`                         | push the matrix at the name           |
| `PopMatrix(n)`                             | pop `n` matrices                      |
| `Matrix(r, p, h, x, y, z, sx, sy, sz)`     | the 64 bytes of a matrix              |
| `HexString(digits)`                        | the bytes that the digits spell       |

Names are resolved through a symbol table. A display list that is external is replaced by the
placeholder; there is no such replacement for a matrix.

## Main definitions

* `PoolFunction`: the five functions;
* `Call.command`: the command that a call stands for;
* `Call.compile`: its bytes.
-/

namespace ModelPatch

/-- The functions that pool calls may name. -/
inductive PoolFunction
  | callList
  | callMatrix
  | popMatrix
  | matrix
  | hexString
  deriving DecidableEq, Repr

/-- The function with a name. -/
def PoolFunction.ofName? : String → Option PoolFunction
  | "CallList" => some .callList
  | "CallMatrix" => some .callMatrix
  | "PopMatrix" => some .popMatrix
  | "Matrix" => some .matrix
  | "HexString" => some .hexString
  | _ => none

namespace Call

/-- The refusal of a call with the wrong number of arguments. -/
def wrongArity {α : Type} (c : Call) (expected : Nat) : Build α :=
  Build.fail (.badArgument (.arity c.function expected c.arguments.length))

/-- The only argument of a call. -/
def onlyArgument (c : Call) : Build (List Char) :=
  match c.arguments with
  | [argument] => pure argument
  | _ => c.wrongArity 1

/-- The segment address of the offset that `name` stands for. -/
def addressOf (name : String) (offset : Int) : Build Nat :=
  match Segment.address? offset with
  | some address => pure address
  | none => Build.fail (.badArgument (.outsideSegment name offset))

/-! ### The five functions -/

/-- The command of `CallList`. -/
def listCommand (t : SymbolTable) (c : Call) : Build Command := do
  let name := String.ofList (← c.onlyArgument)
  return .runList (← addressOf name (← t.resolve name))

/-- The command of `CallMatrix`. -/
def matrixCommand (t : SymbolTable) (c : Call) : Build Command := do
  let name := String.ofList (← c.onlyArgument)
  match ← t.lookup name with
  | .external => Build.fail (.badArgument (.externalMatrix name))
  | .resolved offset => return .pushMatrix (← addressOf name offset)

/-- The number of matrices that an argument asks to pop; the bytes of that many matrices must fit
in a word. -/
def popCount? (argument : List Char) : Option Nat :=
  let base := if "0x".toList.isPrefixOf (argument.map Char.toLower) then Base.sixteen else .ten
  match Numeral.integer? base argument with
  | some (.ofNat count) =>
    if count * Command.matrixStride < Bytes.wordLimit then some count else none
  | _ => none

/-- The command of `PopMatrix`. -/
def popCommand (c : Call) : Build Command := do
  let argument ← c.onlyArgument
  match popCount? argument with
  | some count => return .popMatrices (count * Command.matrixStride)
  | none => Build.fail (.badArgument (.popCount (String.ofList argument)))

/-- The bytes of the matrix that nine arguments give. -/
def matrixBytes (arguments : Vector (List Char) 9) : Except MatrixFault Bytes := do
  (← Transform.parse arguments).encode

/-- The data of `Matrix`. -/
def transformCommand (c : Call) : Build Command :=
  if h : c.arguments.length = 9 then
    match matrixBytes ⟨c.arguments.toArray, by simp [h]⟩ with
    | .ok bytes => pure (.data bytes)
    | .error fault => do
      let shown := ", ".intercalate (c.arguments.map Text.quoted)
      Build.note .error s!"Matrix({shown}): {fault.message}"
      Build.fail (.badArgument (.matrix fault.message))
  else
    c.wrongArity 9

/-- The data of `HexString`. -/
def dataCommand (c : Call) : Build Command := do
  let argument ← c.onlyArgument
  match Bytes.ofHexDigits? argument with
  | some bytes => return .data bytes
  | none => Build.fail (.badArgument (.hexString (String.ofList argument)))

/-! ### Compiling -/

/-- The function of a call. -/
def function? (c : Call) : Option PoolFunction :=
  PoolFunction.ofName? c.function

/-- The command that a call stands for. -/
def command (t : SymbolTable) (c : Call) : Build Command :=
  match c.function? with
  | none => Build.fail (.unknownFunction c.function)
  | some .callList => listCommand t c
  | some .callMatrix => matrixCommand t c
  | some .popMatrix => popCommand c
  | some .matrix => transformCommand c
  | some .hexString => dataCommand c

/-- The bytes of a call. -/
def compile (t : SymbolTable) (c : Call) : Build Bytes := do
  let bytes ← (← c.command t).encode
  Build.note .debug s!"{c.text} -> {bytes.hexDigits}"
  return bytes

/-- The bytes of a call that is given as text. -/
def compileText (t : SymbolTable) (text : List Char) : Build Bytes := do
  (← parse text).compile t

end Call

end ModelPatch

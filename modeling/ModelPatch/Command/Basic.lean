import ModelPatch.Build
import ModelPatch.Bytes.Basic

/-!
# Display-list commands

A pool call becomes a command of the graphics microcode or plain data. A command has eight bytes,
of which the last four are its operand.

## Main definitions

* `Command`: a command or data;
* `Command.encode`: its bytes;
* `Command.branchDistance`, `Command.branchFlag`: how a call becomes a jump.
-/

namespace ModelPatch

/-- A display-list command, or data between commands. -/
inductive Command
  /-- Run the display list at an address and come back. -/
  | runList (address : Nat)
  /-- Push the matrix at an address onto the matrix stack, combined with the top. -/
  | pushMatrix (address : Nat)
  /-- Pop as many matrices as take up this number of bytes. -/
  | popMatrices (size : Nat)
  /-- Bytes that stand for themselves. -/
  | data (bytes : Bytes)
  deriving DecidableEq, Repr

namespace Command

/-- The four bytes in front of the operand `operand`, followed by it. -/
def encodeWith (opening : Bytes) (operand : Nat) : Build Bytes := do
  return opening ++ (← Build.need (.wordTooLarge operand) (Bytes.ofWord? operand))

/-- The bytes of a command. -/
def encode : Command → Build Bytes
  | runList address => encodeWith [0xDE, 0x00, 0x00, 0x00] address
  | pushMatrix address => encodeWith [0xDA, 0x38, 0x00, 0x00] address
  | popMatrices size => encodeWith [0xD8, 0x38, 0x00, 0x02] size
  | data bytes => pure bytes

/-- The distance of the branch flag of `runList` from the end of the command. -/
def branchDistance : Nat := 7

/-- The value of the branch flag that keeps the display list from coming back. -/
def branchFlag : UInt8 := 0x01

/-- The bytes that a matrix takes up on the matrix stack. -/
def matrixStride : Nat := 0x40

end Command

end ModelPatch

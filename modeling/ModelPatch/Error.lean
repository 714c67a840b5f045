import ModelPatch.Numeral.Hex

/-!
# Build errors

A build can be refused for seven kinds of reason. An error is a cause, which says exactly what was
found, and the manifest line it was found on, if there is one. All wording is in this file: the
rest of the library deals in causes.

## Main definitions

* `Location`: a line of a manifest;
* `Cause`: what was found;
* `BuildError`: a cause and its location;
* `BuildError.withLocation`: a location added to an error that has none;
* `Cause.message`, `BuildError.text`: the wording.
-/

namespace ModelPatch

/-- A line of a manifest. -/
structure Location where
  /-- The name of the manifest. -/
  file : String
  /-- The number of the line; the first line has number one. -/
  line : Int
  deriving DecidableEq, Repr

/-- A location as messages show it. -/
def Location.text (l : Location) : String :=
  s!"{l.file}:{l.line}"

/-- The kinds of reason for which a build is refused. -/
inductive Kind
  /-- A part that must be present is missing. -/
  | missingStructure
  /-- Manifest text that cannot be read. -/
  | malformedSyntax
  /-- A name that is not defined. -/
  | unresolvedSymbol
  /-- A call with the wrong arguments. -/
  | invalidArgument
  /-- A call of an unknown function. -/
  | unknownOpcode
  /-- A table that does not fit. -/
  | capacity
  /-- A name that is defined twice. -/
  | duplicateDefinition
  deriving DecidableEq, Repr

/-- The name of a kind. -/
def Kind.text : Kind → String
  | missingStructure => "missing structure"
  | malformedSyntax => "malformed syntax"
  | unresolvedSymbol => "unresolved symbol"
  | invalidArgument => "invalid argument"
  | unknownOpcode => "unknown opcode"
  | capacity => "capacity"
  | duplicateDefinition => "duplicate definition"

/-! ### Causes -/

/-- A part that was not found. -/
inductive Missing
  /-- An asset without a display-list trailer. -/
  | trailer (asset : String)
  /-- A trailer that ends before its count. -/
  | trailerCount (asset : String)
  /-- A trailer that ends before its last record; `read` counts the distinct names before. -/
  | trailerRecords (asset : String) (read declared : Nat)
  /-- An asset without a skeleton header. -/
  | skeleton (asset : String)
  /-- A manifest without a section. -/
  | section (keyword file : String)
  /-- A section without its last line. -/
  | sectionEnd (keyword : String)
  /-- A part that the text names. -/
  | described (text : String)
  deriving DecidableEq, Repr

/-- Manifest text that could not be read. -/
inductive Malformed
  /-- A dictionary line without exactly two words. -/
  | entry
  /-- A bank alias without a quoted name. -/
  | aliasName
  /-- A bank alias whose quotes do not enclose one name. -/
  | aliasQuotes
  /-- A dictionary line whose value is no offset. -/
  | entryOffset (name value : String)
  /-- A declaration of the object pool that is none. -/
  | poolDeclaration
  /-- A pool group with an empty label. -/
  | unnamedGroup
  /-- A pool call before the first label. -/
  | unlabelledCall
  /-- A pool call without one pair of parentheses. -/
  | parentheses (call : String)
  /-- A fault that the text describes. -/
  | described (text : String)
  deriving DecidableEq, Repr

/-- A call argument that was refused. -/
inductive BadArgument
  /-- A call with the wrong number of arguments. -/
  | arity (function : String) (expected given : Nat)
  /-- A symbol whose offset is no segment offset. -/
  | outsideSegment (name : String) (offset : Int)
  /-- A bank object in the place of a matrix. -/
  | externalMatrix (name : String)
  /-- A matrix count that is no number or too large. -/
  | popCount (argument : String)
  /-- A matrix that cannot be formed. -/
  | matrix (reason : String)
  /-- A text that is no string of digit pairs. -/
  | hexString (argument : String)
  /-- A fault that the text describes. -/
  | described (text : String)
  deriving DecidableEq, Repr

/-- A region that is too small for the alias table. -/
inductive Overflow
  /-- The table is larger than the pool. -/
  | pool (size budget : Nat)
  /-- The table, written at `offset`, would end at `stop`, behind the end of the asset. -/
  | asset (offset stop : Int) (length : Nat)
  /-- A fault that the text describes. -/
  | described (text : String) (size budget : Int)
  deriving DecidableEq, Repr

/-- What a build was refused for. -/
inductive Cause
  /-- A fault that the text describes, of no particular sort. -/
  | general (text : String)
  /-- A part is missing. -/
  | missing (what : Missing)
  /-- Manifest text cannot be read. -/
  | malformed (what : Malformed)
  /-- A name is not defined. -/
  | undefinedSymbol (name : String)
  /-- A call has the wrong arguments. -/
  | badArgument (what : BadArgument)
  /-- A call names no known function. -/
  | unknownFunction (name : String)
  /-- The alias table does not fit. -/
  | overflow (what : Overflow)
  /-- A name is defined twice. -/
  | duplicateSymbol (name : String)
  deriving DecidableEq, Repr

/-! ### Wording -/

/-- The wording of a missing part. -/
def Missing.message : Missing → String
  | trailer asset => s!"PlayAs manifest not found in {asset}"
  | trailerCount asset => s!"PlayAs manifest in {asset} is truncated"
  | trailerRecords asset read declared =>
    s!"PlayAs manifest in {asset} is truncated ({read} of {declared} entries read)"
  | skeleton asset => s!"hierarchy could not be located in {asset}"
  | .section keyword file => s!"could not find {keyword} in {file}"
  | sectionEnd keyword => s!"{keyword} has no END"
  | described text => text

/-- The wording of a fault in the manifest. -/
def Malformed.message : Malformed → String
  | entry => "malformed dictionary entry"
  | aliasName => "malformed dictionary entry: bank alias needs a quoted name"
  | aliasQuotes => "malformed dictionary entry: wrong number of \" symbols"
  | entryOffset _ value => s!"unparsable dictionary entry '{value}'"
  | poolDeclaration => "malformed OBJECT POOL declaration"
  | unnamedGroup => "pool entry without a name"
  | unlabelledCall => "pool call outside of a labelled entry"
  | parentheses call => s!"error parsing arguments (parentheses invalid): {call}"
  | described text => text

/-- The wording of a refused argument. -/
def BadArgument.message : BadArgument → String
  | arity function expected given =>
    s!"invalid number of arguments to {function}: expected {expected}, got {given}"
  | outsideSegment name offset =>
    s!"offset {Hex.showInt offset} of '{name}' does not fit in segment 6"
  | externalMatrix name => s!"'{name}' is a bank object and cannot be used as a matrix"
  | popCount argument => s!"invalid argument to PopMatrix: '{argument}'"
  | matrix reason => s!"invalid argument to Matrix: {reason}"
  | hexString argument => s!"invalid hex string: {argument}"
  | described text => text

/-- The wording of an overflow. -/
def Overflow.message : Overflow → String
  | pool size budget =>
    s!"alias table ({Hex.showNat size} bytes) exceeds max OBJECT POOL size " ++
      s!"({Hex.showNat budget} bytes)"
  | asset offset stop length =>
    s!"OBJECT POOL at {Hex.showInt offset} runs past the end of the zobj " ++
      s!"({Hex.showInt stop} > {Hex.showNat length})"
  | described text _ _ => text

/-- The number of bytes that would have been needed. -/
def Overflow.size : Overflow → Int
  | pool size _ => size
  | asset _ stop _ => stop
  | described _ size _ => size

/-- The number of bytes that there are. -/
def Overflow.budget : Overflow → Int
  | pool _ budget => budget
  | asset _ _ length => length
  | described _ _ budget => budget

namespace Cause

/-- The kind of reason that a cause is. -/
def kind : Cause → Kind
  | general _ => .malformedSyntax
  | missing _ => .missingStructure
  | malformed _ => .malformedSyntax
  | undefinedSymbol _ => .unresolvedSymbol
  | badArgument _ => .invalidArgument
  | unknownFunction _ => .unknownOpcode
  | overflow _ => .capacity
  | duplicateSymbol _ => .duplicateDefinition

/-- The wording of a cause. -/
def message : Cause → String
  | general text => text
  | missing what => what.message
  | malformed what => what.message
  | undefinedSymbol name => s!"dictionary entry not found: {name}"
  | badArgument what => what.message
  | unknownFunction name => s!"unknown function name '{name}'"
  | overflow what => what.message
  | duplicateSymbol name => s!"duplicate dictionary entry '{name}'"

end Cause

/-! ### Errors -/

/-- A refused build: what was found, and on which line of the manifest. -/
structure BuildError where
  /-- What was found. -/
  cause : Cause
  /-- The line it was found on, if it was on a line. -/
  location : Option Location := none
  deriving DecidableEq, Repr

namespace BuildError

/-- The error with a location. A location that is already known is kept, because it is the more
precise one. -/
def withLocation (e : BuildError) (l : Location) : BuildError :=
  { e with location := some (e.location.getD l) }

/-- The wording of an error, behind its location. -/
def text (e : BuildError) : String :=
  match e.location with
  | some l => s!"{l.text}: error: {e.cause.message}"
  | none => s!"error: {e.cause.message}"

end BuildError

end ModelPatch

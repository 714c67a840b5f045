import ModelPatch.Build
import ModelPatch.Console.Host

/-!
# Reports

A run of the command line works out what it comes to, prints this and ends. It may have written a
file by then, or have left it half written. Printing comes last in every command, so that all that
can still go wrong in it is that a line does not arrive.

## Main definitions

* `ExitCode`: the exit codes that a run chooses from;
* `Failure`: why a run fails, with its exit code and its line;
* `Verdict`, `Conclusion`: what a run comes to;
* `Ending`, `Outcome`: how it ends, and what it leaves;
* `Conclusion.deliver`: the outcome of a run that prints what it comes to.
-/

namespace ModelPatch

/-- The exit codes that a run chooses from. -/
inductive ExitCode
  /-- All went well. -/
  | success
  /-- The manifest or the asset was refused. -/
  | buildError
  /-- The arguments make no sense, or a file is not there. -/
  | invalidArguments
  /-- Anything else went wrong. -/
  | internalError
  deriving DecidableEq, Repr

/-- The number of an exit code. -/
def ExitCode.code : ExitCode → Nat
  | success => 0
  | buildError => 1
  | invalidArguments => 2
  | internalError => 3

/-- Why a run fails. -/
inductive Failure
  /-- A build fails. -/
  | build (fault : Fault)
  /-- A file cannot be used. -/
  | disk (error : DiskError)
  /-- The value of an argument is refused. -/
  | badParameter (text : String)
  /-- Something that was not foreseen. -/
  | unforeseen (text : String)
  deriving DecidableEq, Repr

namespace Failure

/-- How a run ends with a failure. -/
def exit : Failure → ExitCode
  | build (.refused _) => .buildError
  | build (.defective _) => .internalError
  | disk e => if e.reason.isUnavailable then .invalidArguments else .internalError
  | badParameter _ => .invalidArguments
  | unforeseen _ => .internalError

/-- What a failure is, without saying what it means for the run. -/
def text : Failure → String
  | build fault => fault.text
  | disk e => e.message
  | badParameter text => text
  | unforeseen text => text

/-- The line about a failure. The wording of a refused build says by itself that it is an error. -/
def line (f : Failure) : String :=
  match f.exit with
  | .internalError => s!"Internal error: {f.text}"
  | .invalidArguments => s!"Error: {f.text}"
  | _ => f.text

end Failure

/-! ### The end of a run -/

/-- What a run comes to, before anything of it is printed. -/
inductive Verdict
  /-- There is something to show. -/
  | answer (lines : List String)
  /-- The words of the command line make no sense, or name a path that cannot be used. -/
  | misuse (complaint : String)
  /-- Something fails. -/
  | failure (f : Failure)
  /-- The default output would have a name that is refused. -/
  | unnamable (name : List Char)
  deriving DecidableEq, Repr

/-- Why a run breaks off. -/
inductive Breach
  /-- The default output would have a name that is refused. -/
  | unnamable (name : List Char)
  /-- A line cannot be printed. -/
  | unprintable (line : String)
  deriving DecidableEq, Repr

/-- How a run ends. -/
inductive Ending
  /-- With an exit code that it chooses. -/
  | exit (code : ExitCode)
  /-- With a complaint about the words of the command line. -/
  | misused
  /-- It breaks off: with an exception that it does not handle. -/
  | brokenOff (breach : Breach)
  deriving DecidableEq, Repr

/-- The exit code of a run. One that breaks off has the same code as a refused build. -/
def Ending.code : Ending → Nat
  | exit code => code.code
  | misused => 2
  | brokenOff _ => 1

namespace Verdict

/-- Where a verdict is printed. -/
def stream : Verdict → Stream
  | answer _ => .output
  | _ => .errors

/-- What is printed of a verdict. -/
def lines : Verdict → List String
  | answer lines => lines
  | misuse complaint => [complaint]
  | failure f => [f.line]
  | unnamable _ => []

/-- How a run ends with a verdict that is printed. -/
def ending : Verdict → Ending
  | answer _ => .exit .success
  | misuse _ => .misused
  | failure f => .exit f.exit
  | unnamable name => .brokenOff (.unnamable name)

end Verdict

/-- What a run comes to, with the file that it touched on its way and what this holds now. -/
structure Conclusion where
  /-- What it comes to. -/
  verdict : Verdict
  /-- The file that was touched, and its contents. -/
  touched? : Option (Path × Bytes) := none
  deriving DecidableEq, Repr

/-- What a run leaves. -/
structure Outcome where
  /-- How it ended. -/
  ending : Ending
  /-- The text for the reader. -/
  output : String
  /-- Notices, and the line about what went wrong. -/
  errors : String
  /-- The file that was touched, and its contents. -/
  touched? : Option (Path × Bytes)
  deriving DecidableEq, Repr

/-- The exit code of a run. -/
def Outcome.code (outcome : Outcome) : Nat :=
  outcome.ending.code

/-- The outcome of a run that prints its verdict behind some notices. Files are no longer touched
then, so a line that cannot be printed changes nothing but the end of the run. -/
def Conclusion.deliver (host : Host) (notices : String) (c : Conclusion) : Outcome :=
  let printed := host.print c.verdict.stream 0 c.verdict.lines
  { ending := match printed.failed? with
      | some line => .brokenOff (.unprintable line)
      | none => c.verdict.ending
    output := if c.verdict.stream = .output then printed.text else ""
    errors := if c.verdict.stream = .output then notices else notices ++ printed.text
    touched? := c.touched? }

end ModelPatch

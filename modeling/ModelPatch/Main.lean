import ModelPatch.Console.Run
import ModelPatch.Console.Standard

/-!
# The program

The program looks at the files that the command line names, works out what is to be done, writes the
output file if there is one, and prints what comes of it. All decisions are made by `Console.run` on
the standard host, over what was found on the disk.

## Main definitions

* `Program.survey`: what there is under some paths;
* `main`: the program.
-/

namespace ModelPatch.Program

/-- The number that the operating system gave to an error. -/
def codeOf : IO.Error → UInt32
  | .alreadyExists _ code _ => code
  | .otherError code _ => code
  | .resourceBusy code _ => code
  | .resourceVanished code _ => code
  | .unsupportedOperation code _ => code
  | .hardwareFault code _ => code
  | .unsatisfiedConstraints code _ => code
  | .illegalOperation code _ => code
  | .protocolError code _ => code
  | .timeExpired code _ => code
  | .interrupted _ code _ => code
  | .noFileOrDirectory _ code _ => code
  | .invalidArgument _ code _ => code
  | .permissionDenied _ code _ => code
  | .resourceExhausted _ code _ => code
  | .inappropriateType _ code _ => code
  | .noSuchThing _ code _ => code
  | .unexpectedEof => 0
  | .userError _ => 0

/-- The reason for an error of the operating system. -/
def reasonOf (e : IO.Error) : DiskReason :=
  match (codeOf e).toNat with
  | 2 => .notFound
  | 13 => .denied
  | 20 => .notADirectory
  | 21 => .isADirectory
  | 36 => .nameTooLong
  | code => .other code (toString e)

/-- The contents of a file, or the reason why they cannot be had. -/
def fetch (path : String) : IO (Except DiskReason Bytes) := do
  try
    return .ok (← IO.FS.readBinFile path).toList
  catch e =>
    return .error (reasonOf e)

/-- What can be learned about a path, of which it is known whether it can be read. -/
def statusOf (path : String) (readable : Bool) : IO (Option FileStatus) := do
  try
    let found ← (← IO.FS.realPath path).metadata
    return some ⟨if found.type == .dir then .directory else .file, readable⟩
  catch _ =>
    return none

/-- The standard host over what there is under some paths, with room for everything. -/
def survey (paths : List String) : IO Host := do
  let statuses ← paths.mapM fun path => do
    let readable := (← fetch path).toOption.isSome
    return (path, ← statusOf path readable)
  let contents ← paths.mapM fun path => do
    let normal := Path.ofText path
    return (normal, (← fetch normal.text).mapError (DiskError.at · normal))
  return Host.standard (fun path => (statuses.lookup path).join) {
    read := fun path => (contents.lookup path).getD (.error (.at .notFound path))
    write := fun _ _ => .done }

/-- The paths that a command line names. -/
def pathsOf (words : List String) : List String :=
  match Request.parse words with
  | .ok (.run _ task) => task.inputs ++ task.output?.toList
  | _ => []

/-- Write to an open file. What is left of one that is not written to its end is read back. -/
def fill (file : IO.FS.Handle) (path : Path) (content : Bytes) : IO Writing := do
  try
    file.write (ByteArray.mk content.toArray)
    file.flush
    return .done
  catch e =>
    let left := (← fetch path.text).toOption.getD []
    return .brokenOff left (.described (reasonOf e) (toString e))

/-- Write a file. -/
def write (path : Path) (content : Bytes) : IO Writing := do
  try
    fill (← IO.FS.Handle.mk path.text .write) path content
  catch e =>
    return .refused (.at (reasonOf e) path)

/-- The outcome after the output file was written. If that fails, the outcome is that of a run in
which it does. -/
def commit (host : Host) (settings : Settings) (words : List String) (outcome : Outcome) :
    IO Outcome := do
  match outcome.touched? with
  | some (path, content) =>
    match ← write path content with
    | .done => return outcome
    | writing =>
      let failing : Disk := { host.disk with write := fun _ _ => writing }
      return Console.run { host with disk := failing } settings words
  | none => return outcome

/-- The printed outcome and its exit code. -/
def conclude (outcome : Outcome) : IO UInt32 := do
  (← IO.getStdout).putStr outcome.output
  (← IO.getStderr).putStr outcome.errors
  match outcome.ending with
  | .brokenOff (.unnamable name) => (← IO.getStderr).putStrLn (Path.unnamableMessage name)
  | _ => pure ()
  return UInt32.ofNat outcome.code

/-- The settings that the environment of the program makes. -/
def settings : IO Settings := do
  let found ← Settings.keys.mapM fun key => return (key, ← IO.getEnv key)
  return Settings.ofEnvironment fun key => (found.lookup key).join

end ModelPatch.Program

open ModelPatch in
/-- The program, with the words of its command line. -/
def main (words : List String) : IO UInt32 := do
  let settings ← Program.settings
  let host ← Program.survey (Program.pathsOf words)
  Program.conclude (← Program.commit host settings words (Console.run host settings words))

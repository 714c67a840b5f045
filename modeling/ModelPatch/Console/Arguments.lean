import ModelPatch.Console.Request
import ModelPatch.Disk.Basic

/-!
# Arguments

The command line is a list of words: options of the program, the name of a command, and then the
options and the operands of that command in any order. An option is a word that starts with a dash.
Options with a long name take their value from behind an equals sign or from the next word; those
with a short one can be written together, the last of them with its value attached. The paths that
are named are looked at before a command begins.

## Main definitions

* `UsageError`: why the words make no sense;
* `Request.parse`: the reading of the words;
* `Request.read`: the reading of the words, paths included.
-/

namespace ModelPatch

/-- Why the words of a command line make no sense. -/
inductive UsageError
  /-- There is no option of this name. -/
  | noSuchOption (name : String)
  /-- The option needs a value. -/
  | valueMissing (name : String)
  /-- The option takes no value. -/
  | valueGiven (name : String)
  /-- There is no command. -/
  | commandMissing
  /-- There is no command of this name. -/
  | noSuchCommand (name : String)
  /-- An operand is missing. -/
  | operandMissing
  /-- There are too many operands. -/
  | operandSurplus
  /-- The path cannot be used. -/
  | unusable (path : String)
  deriving DecidableEq, Repr

/-- The wording of a usage error. -/
def UsageError.message : UsageError → String
  | noSuchOption name => s!"Error: No such option: {name}"
  | valueMissing name => s!"Error: Option '{name}' requires an argument."
  | valueGiven name => s!"Error: Option '{name}' does not take a value."
  | commandMissing => "Error: Missing command."
  | noSuchCommand name => s!"Error: No such command '{name}'."
  | operandMissing => "Error: Missing argument."
  | operandSurplus => "Error: Got unexpected extra arguments."
  | unusable path => s!"Error: '{path}' is no usable file."

/-! ### Options -/

/-- The options of the program and of its commands. -/
inductive OptionKey
  | help
  | version
  | verbose
  | output
  | name
  deriving DecidableEq, Repr

namespace OptionKey

/-- The long name of an option. -/
def long : OptionKey → String
  | help => "--help"
  | version => "--version"
  | verbose => "--verbose"
  | output => "--output"
  | name => "--name"

/-- The short name of an option that has one. -/
def short? : OptionKey → Option Char
  | help => none
  | version => some 'V'
  | verbose => some 'v'
  | output => some 'o'
  | name => some 'n'

/-- Whether an option takes a value. -/
def takesValue : OptionKey → Bool
  | output => true
  | name => true
  | _ => false

end OptionKey

/-- An option with its value, which is empty if it takes none. -/
abbrev Given := OptionKey × String

/-- The options in one word, and the option that waits for its value in the next word. -/
structure OptionWord where
  /-- The options that are complete. -/
  given : List Given
  /-- The option that waits for a value. -/
  waiting : Option OptionKey
  deriving DecidableEq, Repr

/-- A word that starts with the long name of an option. -/
def OptionWord.ofLong (key : OptionKey) (value : Option String) : Except UsageError OptionWord :=
  match value with
  | some v => if key.takesValue then .ok ⟨[(key, v)], none⟩ else .error (.valueGiven key.long)
  | none => if key.takesValue then .ok ⟨[], some key⟩ else .ok ⟨[(key, "")], none⟩

/-- The short options that are written together as `letters`. -/
def OptionWord.ofShort (known : List OptionKey) : (letters : List Char) →
    Except UsageError OptionWord
  | [] => .ok ⟨[], none⟩
  | letter :: rest =>
    match known.find? fun key => key.short? = some letter with
    | none => .error (.noSuchOption (String.ofList ['-', letter]))
    | some key =>
      if key.takesValue then
        if rest.isEmpty then .ok ⟨[], some key⟩ else .ok ⟨[(key, String.ofList rest)], none⟩
      else
        (ofShort known rest).map fun w => { w with given := (key, "") :: w.given }

/-- A word that starts with a dash. -/
def OptionWord.parse (known : List OptionKey) (word : List Char) : Except UsageError OptionWord :=
  let long := word.takeWhile (· ≠ '=')
  let value := (word.dropWhile (· ≠ '=')).tail?.map String.ofList
  match known.find? fun key => key.long.toList = long with
  | some key => OptionWord.ofLong key value
  | none =>
    if "--".toList.isPrefixOf word then .error (.noSuchOption (String.ofList long))
    else OptionWord.ofShort known (word.drop 1)

/-- The options among some words, and the operands. Where `mixed` does not hold, the first operand
ends the options; the word `--` always does. -/
def scan (known : List OptionKey) (mixed : Bool) :
    (words : List String) → Except UsageError (List Given × List String)
  | [] => .ok ([], [])
  | word :: rest =>
    if word = "--" then .ok ([], rest)
    else if word.toList.head? = some '-' ∧ word ≠ "-" then do
      let found ← OptionWord.parse known word.toList
      match found.waiting, rest with
      | none, rest => do
        let (given, operands) ← scan known mixed rest
        return (found.given ++ given, operands)
      | some key, value :: rest => do
        let (given, operands) ← scan known mixed rest
        return (found.given ++ (key, value) :: given, operands)
      | some key, [] => .error (.valueMissing key.long)
    else if mixed then do
      let (given, operands) ← scan known mixed rest
      return (given, word :: operands)
    else .ok ([], word :: rest)

/-- The value of an option. The last one counts. -/
def lastValue? (key : OptionKey) (given : List Given) : Option String :=
  (given.reverse.find? fun g => g.1 = key).map Prod.snd

/-! ### Commands -/

/-- The commands. -/
inductive CommandName
  | build
  | dictionary
  | table
  | trailer
  | hierarchy
  deriving DecidableEq, Repr

namespace CommandName

/-- The command with a name. -/
def ofText? : String → Option CommandName
  | "build" => some build
  | "dictionary" => some dictionary
  | "table" => some table
  | "trailer" => some trailer
  | "hierarchy" => some hierarchy
  | _ => none

/-- The options of a command. -/
def options : CommandName → List OptionKey
  | build => [.output, .name, .help]
  | _ => [.help]

/-- The number of operands of a command. -/
def arity : CommandName → Nat
  | build | dictionary | table => 2
  | trailer | hierarchy => 1

/-- The task that a command has with some operands. -/
def task? (given : List Given) : CommandName → (operands : List String) → Option Task
  | build, [manifest, asset] =>
    some (.build manifest asset (lastValue? .output given) (lastValue? .name given))
  | dictionary, [manifest, asset] => some (.dictionary manifest asset)
  | table, [manifest, asset] => some (.table manifest asset)
  | trailer, [asset] => some (.trailer asset)
  | hierarchy, [asset] => some (.skeleton asset)
  | _, _ => none

end CommandName

/-! ### Help and version -/

/-- The answer to a request for the version. -/
def versionLine : String := "playas, version 1.0.0"

/-- The answer to a request for help. -/
def helpLines : List String :=
  ["Usage: playas [OPTIONS] COMMAND [ARGS]...",
    "",
    "Options:",
    "  -V, --version  Show the version and exit.",
    "  -v, --verbose  Show every notice, with its level.",
    "  --help         Show this message and exit.",
    "",
    "Commands:",
    "  build MANIFEST ZOBJ       Write the patched zobj.",
    "    -o, --output PATH       Where to write it.",
    "    -n, --name TEXT         The name of the zobj in messages.",
    "  dictionary MANIFEST ZOBJ  List the final symbols.",
    "  table MANIFEST ZOBJ       Show the alias table.",
    "  trailer ZOBJ              List the display lists of the zobj.",
    "  hierarchy ZOBJ            Show the skeleton header of the zobj."]

namespace Request

/-- The request that the words behind the name of a command make. -/
def parseCommand (verbose : Bool) (command : CommandName) (words : List String) :
    Except UsageError Request := do
  let (given, operands) ← scan command.options true words
  if given.any fun g => g.1 = .help then
    return .answer helpLines
  match command.task? given operands with
  | some task => return .run verbose task
  | none => .error (if operands.length < command.arity then .operandMissing else .operandSurplus)

/-- Whether a name looks like an option where a command is expected. -/
def looksLikeOption (name : String) : Bool :=
  name.toList.head?.any fun c => c.toNat < 128 && !c.isAlphanum

/-- The request that the words of a command line make. Of the requests for help and for the
version, the first is met before the rest is looked at. -/
def parse (words : List String) : Except UsageError Request := do
  let (given, operands) ← scan [.version, .verbose, .help] false words
  let early := given.find? fun g => g.1 = .version ∨ g.1 = .help
  let verbose := given.any fun g => g.1 = .verbose
  match early, operands with
  | some (.version, _), _ => return .answer [versionLine]
  | some _, _ => return .answer helpLines
  | none, [] => if words.isEmpty then return .answer helpLines else .error .commandMissing
  | none, name :: rest =>
    match CommandName.ofText? name with
    | some command => parseCommand verbose command rest
    | none =>
      if looksLikeOption name then return .answer helpLines else .error (.noSuchCommand name)

end Request

/-! ### Paths -/

namespace Task

/-- The paths of the files that a task reads. -/
def inputs : Task → List String
  | build manifest asset _ _ => [manifest, asset]
  | dictionary manifest asset => [manifest, asset]
  | table manifest asset => [manifest, asset]
  | trailer asset => [asset]
  | skeleton asset => [asset]

/-- The path of the file that a task was told to write. -/
def output? : Task → Option String
  | build _ _ output _ => output
  | _ => none

/-- The first path of a task that cannot be used: an input that is not a file that may be read, or
an output where there is something else than such a file. -/
def unusable? (status? : String → Option FileStatus) (task : Task) : Option String :=
  (task.inputs.find? fun path => status? path ≠ some ⟨.file, true⟩) <|>
    task.output?.filter fun path => (status? path).any (· ≠ ⟨.file, true⟩)

end Task

/-- The request that the words of a command line make, if all paths that it names can be used. -/
def Request.read (status? : String → Option FileStatus) (words : List String) :
    Except UsageError Request := do
  let request ← Request.parse words
  match request with
  | .answer _ => return request
  | .run _ task =>
    match task.unusable? status? with
    | some path => .error (.unusable path)
    | none => return request

end ModelPatch

import ModelPatch.Console.Listing
import ModelPatch.Console.Report
import ModelPatch.Settings

/-!
# Runs of the command line

A run asks its host what the words of the command line mean, reads the files they name, carries out
the command and prints what comes of it. No file is opened for writing before everything else has
succeeded.

## Main definitions

* `Patch.ofFiles`: the patch of an asset and a manifest on a disk;
* `Task.carryOut`: what a task comes to;
* `Console.run`: the outcome of a command line.
-/

namespace ModelPatch

/-- What is built from files, with the notices of the build. -/
abbrev Built (α : Type) := List Notice × Except Failure α

/-- A build as part of a run. -/
def Build.built {α : Type} (b : Build α) : Built α :=
  (b.log, b.result.mapError .build)

/-- The patch of an asset and a manifest on a disk. The manifest is read first. A name that is
empty or left out is that of the file. -/
def Patch.ofFiles (disk : Disk) (manifest asset : Path) (name : Option String)
    (placeholder : String) : Built Patch :=
  match disk.read manifest, disk.read asset with
  | .ok source, .ok content =>
    let shown := (name.filter (· ≠ "")).getD asset.name
    (Patch.build (.bytes source) content shown manifest.name placeholder).built
  | .error e, _ => ([], .error (.disk e))
  | .ok _, .error e => ([], .error (.disk e))

/-- What a reader makes of the contents of an asset on a disk. -/
def readAsset {α : Type} (disk : Disk) (asset : Path) (reader : String → Bytes → Build α) :
    Built α :=
  match disk.read asset with
  | .ok content => (reader asset.name content).built
  | .error e => ([], .error (.disk e))

/-! ### Tasks -/

namespace Task

/-- What writing a patch to a path comes to. -/
def writePatch (disk : Disk) (p : Patch) (path : Path) : Conclusion :=
  let writing := disk.write path.normal p.output
  { verdict := match writing.error? with
      | none => .answer [p.writtenLine path]
      | some e => .failure (.disk e)
    touched? := (writing.left? p.output).map (path.normal, ·) }

/-- The name of the output if nothing else is said: that of the asset with another ending. -/
def defaultName (settings : Settings) (asset : Path) : List Char :=
  asset.stem ++ settings.outputSuffix.toList

/-- What a build comes to once there is a patch of the asset, or none. The patch goes to the path
that was asked for, or else beside the asset. -/
def finishBuild (host : Host) (settings : Settings) (asset : Path) (output : Option String) :
    Except Failure Patch → Conclusion
  | .error f => { verdict := .failure f }
  | .ok p =>
    match output with
    | some path => writePatch host.disk p (Path.ofText path)
    | none =>
      match host.withName? asset (defaultName settings asset) with
      | some path => writePatch host.disk p path
      | none => { verdict := .unnamable (defaultName settings asset) }

/-- The notices and the end of showing what was built, where `lines` says how. -/
def showBuilt {α : Type} (lines : α → List String) (built : Built α) : List Notice × Conclusion :=
  (built.1, match built.2 with
    | .ok a => { verdict := .answer (lines a) }
    | .error f => { verdict := .failure f })

/-- The notices of a task, and what it comes to. -/
def carryOut (host : Host) (settings : Settings) : Task → List Notice × Conclusion
  | build manifest asset output name =>
    let asset := Path.ofText asset
    let built := Patch.ofFiles host.disk (Path.ofText manifest) asset name settings.placeholder
    (built.1, finishBuild host settings asset output built.2)
  | dictionary manifest asset =>
    showBuilt (fun p : Patch => [p.symbols.listing])
      (Patch.ofFiles host.disk (Path.ofText manifest) (Path.ofText asset) none settings.placeholder)
  | table manifest asset =>
    showBuilt Patch.tableLines
      (Patch.ofFiles host.disk (Path.ofText manifest) (Path.ofText asset) none settings.placeholder)
  | trailer asset => showBuilt Trailer.lines (readAsset host.disk (Path.ofText asset) Trailer.parse)
  | skeleton asset =>
    showBuilt Skeleton.lines (readAsset host.disk (Path.ofText asset) Skeleton.locate)

end Task

/-! ### Runs -/

namespace Console

/-- The notices that are shown, one to a line. With `verbose` all are shown, with their levels. -/
def noticeText (verbose : Bool) (level : Level) (log : List Notice) : String :=
  let least := if verbose then Level.debug else level
  let shown := log.filter fun n => least.rank ≤ n.level.rank
  String.join (shown.map fun n =>
    if verbose then s!"{n.level.text}: {n.text}\n" else s!"{n.text}\n")

/-- The notices that are shown in a run, and what it comes to. -/
def conclude (host : Host) (settings : Settings) (words : List String) : String × Conclusion :=
  match host.request words with
  | .error complaint => ("", { verdict := .misuse complaint })
  | .ok (.answer lines) => ("", { verdict := .answer lines })
  | .ok (.run verbose task) =>
    let (log, conclusion) := task.carryOut host settings
    (noticeText verbose settings.level log, conclusion)

/-- The outcome of a command line. -/
def run (host : Host) (settings : Settings) (words : List String) : Outcome :=
  let (notices, conclusion) := conclude host settings words
  conclusion.deliver host notices

end Console

end ModelPatch

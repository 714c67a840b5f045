import Mathlib
import ModelPatch.Proofs.GroupCode

/-!
# How a call is refused

A step fails with a fault, and a fault is either a refusal or a defect. Which faults a step can have
is said by `FailsOnly`, which passes from the parts of a step to the whole of it: to show that a
long chain of steps has no defect, it is enough to look at its links one at a time.

The first use is the compiling of calls. It knows nothing about lines, so it refuses a call without
a location, and whoever compiles the call on behalf of a manifest adds the line. That no defect is
among its faults depends on two guards: what becomes an operand must fit in a word, and the checks
in front of it, one for addresses and one for counts, must be tight enough for that.

## Main definitions

* `Build.FailsOnly`: every fault of a step has a property;
* `Fault.IsRefusal`: the fault is a refusal, and for one of the seven kinds of reason;
* `Fault.IsOfCall`: the fault is the refusal of a call, which has no location yet;
* `Fault.IsUndefined`: the fault is the refusal of a name;
* `Command.Fits`: the operand of a command fits in a word.

## Main results

* `Build.FailsOnly.bind`, `Build.FailsOnly.mapM`, `Build.FailsOnly.foldlM`: from parts to wholes;
* `Call.Means.fits`: the operand of every command that a call stands for fits in a word;
* `Call.failsOnly_compileText`: a call that is not compiled is refused, without a location;
* `Group.failsOnly_compileCall`: on behalf of a manifest it is refused too.
-/

namespace ModelPatch

/-! ### Faults -/

/-- A cause of one of the seven particular sorts. -/
def Cause.IsParticular : Cause → Prop
  | general _ => False
  | _ => True

/-- A refusal for a particular cause. -/
def Fault.IsRefusal (fault : Fault) : Prop :=
  ∃ cause location, fault = .refused ⟨cause, location⟩ ∧ cause.IsParticular

/-- A cause for which a call is refused, whatever stands around it. -/
def Cause.ConcernsCall : Cause → Prop
  | malformed _ | undefinedSymbol _ | badArgument _ | unknownFunction _ => True
  | _ => False

theorem Cause.ConcernsCall.isParticular {cause : Cause} (h : cause.ConcernsCall) :
    cause.IsParticular := by
  cases cause with
  | general _ => exact h
  | _ => trivial

/-- What a call is refused for has nothing to do with room. -/
theorem Cause.ConcernsCall.kind_ne {cause : Cause} (h : cause.ConcernsCall) :
    cause.kind ≠ .capacity := by
  cases cause with
  | overflow _ => exact h.elim
  | _ => exact Kind.noConfusion

/-- The refusal of a call that is not said to be on a line. -/
def Fault.IsOfCall (fault : Fault) : Prop :=
  ∃ cause, fault = .refused ⟨cause, none⟩ ∧ cause.ConcernsCall

theorem Fault.IsOfCall.isRefusal {fault : Fault} (h : fault.IsOfCall) : fault.IsRefusal := by
  obtain ⟨cause, rfl, hcause⟩ := h
  exact ⟨cause, none, rfl, hcause.isParticular⟩

/-- The refusal of a name that is not defined. -/
def Fault.IsUndefined (fault : Fault) : Prop :=
  ∃ name, fault = .refused ⟨.undefinedSymbol name, none⟩

theorem Fault.IsUndefined.isOfCall {fault : Fault} (h : fault.IsUndefined) : fault.IsOfCall := by
  obtain ⟨name, rfl⟩ := h
  exact ⟨.undefinedSymbol name, rfl, trivial⟩

namespace Build

variable {α β : Type} {P Q : Fault → Prop} {x : Build α}

/-- Every fault of a step has a property. -/
def FailsOnly (P : Fault → Prop) (x : Build α) : Prop :=
  ∀ fault, x.result = .error fault → P fault

theorem FailsOnly.mono (h : x.FailsOnly P) (hPQ : ∀ fault, P fault → Q fault) : x.FailsOnly Q := by
  intro fault hfault
  exact hPQ fault (h fault hfault)

/-- A step whose faults are all refusals succeeds or is refused. -/
theorem FailsOnly.ok_or_refused (h : x.FailsOnly Fault.IsRefusal) :
    (∃ a, x.result = .ok a) ∨
      ∃ cause location, x.result = .error (.refused ⟨cause, location⟩) ∧ cause.IsParticular := by
  cases hresult : x.result with
  | ok a => exact .inl ⟨a, rfl⟩
  | error fault =>
    obtain ⟨cause, location, rfl, hcause⟩ := h fault hresult
    exact .inr ⟨cause, location, rfl, hcause⟩

/-! ### Elementary steps -/

theorem failsOnly_of_ok {a : α} (h : x.result = .ok a) : x.FailsOnly P := by
  intro fault hfault
  rw [h] at hfault
  cases hfault

theorem failsOnly_pure (a : α) : (pure a : Build α).FailsOnly P :=
  failsOnly_of_ok rfl

theorem failsOnly_note (level : Level) (text : String) : (note level text).FailsOnly P :=
  failsOnly_of_ok rfl

theorem failsOnly_fail {cause : Cause} {location : Option Location}
    (h : P (.refused ⟨cause, location⟩)) : (fail cause location : Build α).FailsOnly P := by
  intro fault hfault
  rw [result_fail, Except.error.injEq] at hfault
  rwa [← hfault]

theorem failsOnly_need {defect : Defect} {o : Option α} (h : o.isSome) :
    (need defect o).FailsOnly P := by
  obtain ⟨a, rfl⟩ := Option.isSome_iff_exists.mp h
  exact failsOnly_of_ok (result_need_some defect a)

theorem failsOnly_refuse {cause : Cause} {location : Option Location} (h : cause.IsParticular) :
    (fail cause location : Build α).FailsOnly Fault.IsRefusal :=
  failsOnly_fail ⟨cause, location, rfl, h⟩

theorem failsOnly_refuse_call {cause : Cause} (h : cause.ConcernsCall) :
    (fail cause : Build α).FailsOnly Fault.IsOfCall :=
  failsOnly_fail ⟨cause, rfl, h⟩

/-! ### Compound steps -/

/-- The faults of two steps are those of the first, and those of the second after the first has
succeeded. -/
theorem FailsOnly.bind {f : α → Build β} (hx : x.FailsOnly P)
    (hf : ∀ a, x.result = .ok a → (f a).FailsOnly P) : (x >>= f).FailsOnly P := by
  intro fault h
  rcases result_bind_eq_error_iff.mp h with h | ⟨a, ha, h⟩
  · exact hx fault h
  · exact hf a ha fault h

/-- A notice in front of a step adds no fault. -/
theorem FailsOnly.noted {level : Level} {text : String} {f : Unit → Build β}
    (h : (f ()).FailsOnly P) : (note level text >>= f).FailsOnly P :=
  (failsOnly_note level text).bind fun _ _ => h

theorem FailsOnly.mapM {f : α → Build β} (hf : ∀ a, (f a).FailsOnly P) (xs : List α) :
    (xs.mapM f).FailsOnly P := by
  induction xs with
  | nil => exact failsOnly_pure []
  | cons a rest ih =>
    rw [List.mapM_cons]
    exact (hf a).bind fun _ _ => ih.bind fun _ _ => failsOnly_pure _

theorem FailsOnly.foldlM {f : β → α → Build β} (hf : ∀ b a, (f b a).FailsOnly P) (xs : List α)
    (b : β) : (xs.foldlM f b).FailsOnly P := by
  induction xs generalizing b with
  | nil => exact failsOnly_pure b
  | cons a rest ih =>
    rw [List.foldlM_cons]
    exact (hf b a).bind fun b' _ => ih b'

end Build

open Build

/-! ### Symbols -/

namespace SymbolTable

variable (t : SymbolTable) (name : String)

theorem failsOnly_lookup : (t.lookup name).FailsOnly Fault.IsUndefined := by
  rw [lookup]
  cases t.symbols.get? name with
  | some symbol => exact failsOnly_pure symbol
  | none => exact failsOnly_fail ⟨name, rfl⟩

/-- If a name has no offset, then it is not defined, or the placeholder in its place is not. -/
theorem failsOnly_resolve : (t.resolve name).FailsOnly Fault.IsUndefined := by
  rw [resolve]
  refine (failsOnly_lookup t name).bind fun symbol _ => ?_
  cases symbol with
  | resolved offset => exact failsOnly_pure offset
  | external =>
    refine .noted <| (failsOnly_lookup t t.placeholder).bind fun symbol _ => ?_
    cases symbol with
    | resolved offset => exact failsOnly_pure offset
    | external => exact failsOnly_fail ⟨t.placeholder, rfl⟩

end SymbolTable

/-! ### Operands -/

namespace Command

variable {command : Command}

/-- The operand of a command, if it has one, fits in a word. -/
def Fits : Command → Prop
  | runList address => address < Bytes.wordLimit
  | pushMatrix address => address < Bytes.wordLimit
  | popMatrices size => size < Bytes.wordLimit
  | data _ => True

theorem Fits.exists_encode (h : command.Fits) : ∃ bytes, command.encode.result = .ok bytes := by
  cases command with
  | runList address => exact ⟨_, encodeWith_eq_ok_iff.mpr ⟨h, rfl⟩⟩
  | pushMatrix address => exact ⟨_, encodeWith_eq_ok_iff.mpr ⟨h, rfl⟩⟩
  | popMatrices size => exact ⟨_, encodeWith_eq_ok_iff.mpr ⟨h, rfl⟩⟩
  | data bytes => exact ⟨bytes, rfl⟩

end Command

namespace Call

variable {t : SymbolTable} {c : Call}

theorem lt_wordLimit_of_popCount? {argument : List Char} {count : Nat}
    (h : popCount? argument = some count) : count * Command.matrixStride < Bytes.wordLimit := by
  simp only [popCount?] at h
  split at h
  · split at h
    · next hfits =>
      obtain rfl := Option.some.inj h
      exact hfits
    · cases h
  · cases h

/-- **Operands fit.** What a call puts into a word has passed a check that keeps it small enough. -/
theorem Means.fits {command : Command} (h : c.Means t command) : command.Fits := by
  cases h with
  | callList _ _ _ hn => exact Segment.address_lt_wordLimit hn
  | callMatrix _ _ _ hn => exact Segment.address_lt_wordLimit hn
  | popMatrix _ _ hcount => exact lt_wordLimit_of_popCount? hcount
  | matrix => trivial
  | hexString => trivial

/-! ### Calls -/

theorem failsOnly_parse (text : List Char) : (parse text).FailsOnly Fault.IsOfCall := by
  rw [parse]
  cases ofText? (Text.strip text) with
  | some call => exact failsOnly_pure call
  | none => exact failsOnly_refuse_call trivial

theorem failsOnly_wrongArity {α : Type} (c : Call) (expected : Nat) :
    (c.wrongArity expected : Build α).FailsOnly Fault.IsOfCall :=
  failsOnly_refuse_call trivial

theorem failsOnly_onlyArgument (c : Call) : c.onlyArgument.FailsOnly Fault.IsOfCall := by
  rw [onlyArgument]
  split
  · exact failsOnly_pure _
  · exact failsOnly_wrongArity c 1

theorem failsOnly_addressOf (name : String) (offset : Int) :
    (addressOf name offset).FailsOnly Fault.IsOfCall := by
  rw [addressOf]
  split
  · exact failsOnly_pure _
  · exact failsOnly_refuse_call trivial

theorem failsOnly_transformCommand (c : Call) :
    (transformCommand c).FailsOnly Fault.IsOfCall := by
  rw [transformCommand]
  split
  · split
    · exact failsOnly_pure _
    · exact .noted (failsOnly_refuse_call trivial)
  · exact failsOnly_wrongArity c 9

theorem failsOnly_command (t : SymbolTable) (c : Call) :
    (c.command t).FailsOnly Fault.IsOfCall := by
  rw [Call.command]
  split
  · exact failsOnly_refuse_call trivial
  · refine (failsOnly_onlyArgument c).bind fun argument _ => ?_
    have hresolve := (SymbolTable.failsOnly_resolve t (String.ofList argument)).mono
      fun _ => Fault.IsUndefined.isOfCall
    refine hresolve.bind fun offset _ => ?_
    exact (failsOnly_addressOf _ offset).bind fun _ _ => failsOnly_pure _
  · refine (failsOnly_onlyArgument c).bind fun argument _ => ?_
    have hlookup := (SymbolTable.failsOnly_lookup t (String.ofList argument)).mono
      fun _ => Fault.IsUndefined.isOfCall
    refine hlookup.bind fun symbol _ => ?_
    cases symbol with
    | external => exact failsOnly_refuse_call trivial
    | resolved offset => exact (failsOnly_addressOf _ offset).bind fun _ _ => failsOnly_pure _
  · refine (failsOnly_onlyArgument c).bind fun argument _ => ?_
    split
    · exact failsOnly_pure _
    · exact failsOnly_refuse_call trivial
  · exact failsOnly_transformCommand c
  · refine (failsOnly_onlyArgument c).bind fun argument _ => ?_
    split
    · exact failsOnly_pure _
    · exact failsOnly_refuse_call trivial

theorem failsOnly_compile (t : SymbolTable) (c : Call) :
    (c.compile t).FailsOnly Fault.IsOfCall := by
  rw [compile]
  refine (failsOnly_command t c).bind fun command hcommand => ?_
  obtain ⟨bytes, hbytes⟩ := (command_eq_ok_iff.mp hcommand).fits.exists_encode
  exact (failsOnly_of_ok hbytes).bind fun bytes _ => .noted (failsOnly_pure bytes)

/-- **A call that is not compiled is refused**, and the refusal has no location. -/
theorem failsOnly_compileText (t : SymbolTable) (text : List Char) :
    (compileText t text).FailsOnly Fault.IsOfCall :=
  (failsOnly_parse text).bind fun call _ => failsOnly_compile t call

end Call

/-! ### Calls of a manifest -/

namespace Group

/-- A refusal that gets a location is still a refusal for the same cause. -/
theorem failsOnly_atCall {α : Type} {location : Location} {step : Build α}
    (h : step.FailsOnly Fault.IsRefusal) :
    (atCall location step).FailsOnly Fault.IsRefusal := by
  intro fault hfault
  rw [Group.atCall] at hfault
  split at hfault
  · next e he =>
    obtain ⟨cause, place, heq, hcause⟩ := h _ he
    obtain rfl := Fault.refused.inj heq
    obtain rfl := Except.error.inj hfault
    exact ⟨cause, _, rfl, hcause⟩
  · exact h fault hfault

theorem failsOnly_compileCall (t : SymbolTable) (placed : PlacedCall) :
    (compileCall t placed).FailsOnly Fault.IsRefusal := by
  refine failsOnly_atCall (FailsOnly.mono ?_ fun _ => Fault.IsOfCall.isRefusal)
  refine (Call.failsOnly_parse placed.text).bind fun call _ => ?_
  exact (Call.failsOnly_compile t call).bind fun _ _ => failsOnly_pure _

end Group

end ModelPatch

import Mathlib
import ModelPatch.Command.Compile
import ModelPatch.Proofs.SymbolScope

/-!
# What a call compiles to

A call that names a display list or a matrix compiles to eight bytes: four that say what is to be
done, and the address of what is named. The two functions differ in their first four bytes and in
what they make of an external name, but not in where the address goes, so that `Names` puts both
under one statement.

## Main definitions

* `Call.Means`: the five functions, each as a rule;
* `Call.Names`: a call of either function, with the name it is about.

## Main results

* `Call.command_eq_ok_iff`: a call stands for what the rules say;
* `Call.compile_eq_ok_iff`: it compiles to the bytes of that;
* `Call.compile_of_growsTo`: more names change nothing about a call that compiles;
* `Call.compile_callList_eq_ok_iff`, `Call.compile_callMatrix_eq_ok_iff`: when the two functions
  compile, and to what;
* `Call.Names.compile_resolved`: the address of a name stands in the last four of eight bytes;
* `Call.Names.compile_external`: an external display list becomes the placeholder.
-/

namespace ModelPatch

/-! ### Addresses -/

theorem Segment.address?_eq_some_iff {offset : Int} {address : Nat} :
    Segment.address? offset = some address ↔
      ∃ n : Nat, offset = n ∧ n < Segment.size ∧ address = Segment.id * Segment.size + n := by
  rw [Segment.address?]
  constructor
  · intro h
    split at h
    · next hin => exact ⟨offset.toNat, by omega, by omega, (Option.some.inj h).symm⟩
    · cases h
  · rintro ⟨n, rfl, hn, rfl⟩
    rw [if_pos (by omega), Int.toNat_natCast]

/-- Addresses fit in a word. -/
theorem Segment.address_lt_wordLimit {n : Nat} (hn : n < Segment.size) :
    Segment.id * Segment.size + n < Bytes.wordLimit := by
  simp only [Segment.id, Segment.size, Bytes.wordLimit] at *
  omega

theorem Command.encodeWith_eq_ok_iff {opening bytes : Bytes} {operand : Nat} :
    (Command.encodeWith opening operand).result = .ok bytes ↔
      operand < Bytes.wordLimit ∧ bytes = opening ++ Bytes.ofNat 4 operand := by
  rw [Command.encodeWith, Build.result_bind_eq_ok_iff, Bytes.ofWord?]
  by_cases h : operand < Bytes.wordLimit <;> simp [h, eq_comm]

namespace Call

variable {t : SymbolTable} {c : Call} {bytes : Bytes}

theorem onlyArgument_eq_ok_iff {argument : List Char} :
    c.onlyArgument.result = .ok argument ↔ c.arguments = [argument] := by
  rw [onlyArgument]
  split
  · next given hgiven => simp [hgiven]
  · next hother =>
    simp only [wrongArity, Build.result_fail, reduceCtorEq, false_iff]
    exact hother argument

theorem addressOf_eq_ok_iff {name : String} {offset : Int} {address : Nat} :
    (addressOf name offset).result = .ok address ↔ Segment.address? offset = some address := by
  rw [addressOf]
  split <;> simp [*]

/-! ### The five functions -/

/-- What a call stands for, with one rule for each function. -/
inductive Means (t : SymbolTable) (c : Call) : Command → Prop
  /-- A display list, or the placeholder in its place. -/
  | callList {argument : List Char} {n : Nat} (function : c.function? = some .callList)
      (arguments : c.arguments = [argument])
      (offset : (t.resolve (String.ofList argument)).result = .ok (n : Int))
      (bound : n < Segment.size) : Means t c (.runList (Segment.id * Segment.size + n))
  /-- A matrix, for which there is no placeholder. -/
  | callMatrix {argument : List Char} {n : Nat} (function : c.function? = some .callMatrix)
      (arguments : c.arguments = [argument])
      (offset : t.symbols.get? (String.ofList argument) = some (.resolved n))
      (bound : n < Segment.size) : Means t c (.pushMatrix (Segment.id * Segment.size + n))
  /-- A number of matrices to be popped. -/
  | popMatrix {argument : List Char} {count : Nat} (function : c.function? = some .popMatrix)
      (arguments : c.arguments = [argument]) (value : popCount? argument = some count) :
      Means t c (.popMatrices (count * Command.matrixStride))
  /-- The bytes of a matrix. -/
  | matrix {bytes : Bytes} (function : c.function? = some .matrix)
      (arguments : c.arguments.length = 9)
      (value : matrixBytes ⟨c.arguments.toArray, by simp [arguments]⟩ = .ok bytes) :
      Means t c (.data bytes)
  /-- The bytes that digits spell. -/
  | hexString {argument : List Char} {bytes : Bytes} (function : c.function? = some .hexString)
      (arguments : c.arguments = [argument])
      (value : Bytes.ofHexDigits? argument = some bytes) : Means t c (.data bytes)

theorem command_eq_ok_iff {command : Command} :
    (c.command t).result = .ok command ↔ c.Means t command := by
  constructor
  · intro h
    rw [Call.command] at h
    split at h
    · cases h
    · next hf =>
      simp only [listCommand, Build.result_bind_eq_ok_iff, onlyArgument_eq_ok_iff,
        addressOf_eq_ok_iff, Segment.address?_eq_some_iff, Build.result_pure,
        Except.ok.injEq] at h
      obtain ⟨argument, harguments, _, hoffset, _, ⟨n, rfl, hn, rfl⟩, rfl⟩ := h
      exact .callList hf harguments hoffset hn
    · next hf =>
      simp only [matrixCommand, Build.result_bind_eq_ok_iff, onlyArgument_eq_ok_iff,
        SymbolTable.lookup_eq_ok_iff] at h
      obtain ⟨argument, harguments, symbol, hsymbol, h⟩ := h
      cases symbol with
      | external => cases h
      | resolved offset =>
        simp only [Build.result_bind_eq_ok_iff, addressOf_eq_ok_iff, Segment.address?_eq_some_iff,
          Build.result_pure, Except.ok.injEq] at h
        obtain ⟨_, ⟨n, rfl, hn, rfl⟩, rfl⟩ := h
        exact .callMatrix hf harguments hsymbol hn
    · next hf =>
      obtain ⟨argument, harguments, h⟩ := Build.result_bind_eq_ok_iff.mp h
      split at h
      · next count hcount =>
        obtain rfl := Except.ok.inj h
        exact .popMatrix hf (onlyArgument_eq_ok_iff.mp harguments) hcount
      · cases h
    · next hf =>
      rw [transformCommand] at h
      split at h
      · next harguments =>
        split at h
        · next bytes hbytes =>
          obtain rfl := Except.ok.inj h
          exact .matrix hf harguments hbytes
        · obtain ⟨_, _, hfail⟩ := Build.result_bind_eq_ok_iff.mp h
          cases hfail
      · cases h
    · next hf =>
      obtain ⟨argument, harguments, h⟩ := Build.result_bind_eq_ok_iff.mp h
      split at h
      · next bytes hbytes =>
        obtain rfl := Except.ok.inj h
        exact .hexString hf (onlyArgument_eq_ok_iff.mp harguments) hbytes
      · cases h
  · intro h
    rw [Call.command]
    cases h with
    | callList hf harguments hoffset hn =>
      simp only [hf, listCommand, Build.result_bind_eq_ok_iff, onlyArgument_eq_ok_iff,
        addressOf_eq_ok_iff, Segment.address?_eq_some_iff]
      exact ⟨_, harguments, _, hoffset, _, ⟨_, rfl, hn, rfl⟩, rfl⟩
    | callMatrix hf harguments hoffset hn =>
      simp only [hf, matrixCommand, Build.result_bind_eq_ok_iff, onlyArgument_eq_ok_iff,
        SymbolTable.lookup_eq_ok_iff]
      refine ⟨_, harguments, _, hoffset, ?_⟩
      simp only [Build.result_bind_eq_ok_iff, addressOf_eq_ok_iff, Segment.address?_eq_some_iff]
      exact ⟨_, ⟨_, rfl, hn, rfl⟩, rfl⟩
    | popMatrix hf harguments hcount =>
      simp only [hf, popCommand, Build.result_bind_eq_ok_iff, onlyArgument_eq_ok_iff]
      exact ⟨_, harguments, by rw [hcount]; rfl⟩
    | matrix hf harguments hbytes =>
      simp only [hf, transformCommand, harguments, dif_pos, hbytes, Build.result_pure]
    | hexString hf harguments hbytes =>
      simp only [hf, dataCommand, Build.result_bind_eq_ok_iff, onlyArgument_eq_ok_iff]
      exact ⟨_, harguments, by rw [hbytes]; rfl⟩

/-- A call compiles to the bytes of the command that it stands for. -/
theorem compile_eq_ok_iff :
    (c.compile t).result = .ok bytes ↔
      ∃ command, c.Means t command ∧ command.encode.result = .ok bytes := by
  rw [compile, Build.result_bind_eq_ok_iff]
  simp only [Build.result_bind_eq_ok_iff, Build.result_note, Build.result_pure, command_eq_ok_iff]
  constructor
  · rintro ⟨command, hmeans, encoded, hencoded, -, -, heq⟩
    exact ⟨command, hmeans, by rw [hencoded, heq]⟩
  · rintro ⟨command, hmeans, hencoded⟩
    exact ⟨command, hmeans, bytes, hencoded, by simp⟩

/-! ### Growing symbol tables -/

/-- What a call stands for does not change while the symbol table grows. -/
theorem Means.of_growsTo {t' : SymbolTable} {command : Command} (hgrows : t.GrowsTo t')
    (h : c.Means t command) : c.Means t' command := by
  cases h with
  | callList hf harguments hoffset hn => exact .callList hf harguments (hgrows.resolve hoffset) hn
  | callMatrix hf harguments hoffset hn =>
    exact .callMatrix hf harguments (hgrows.get? _ _ hoffset) hn
  | popMatrix hf harguments hcount => exact .popMatrix hf harguments hcount
  | matrix hf harguments hbytes => exact .matrix hf harguments hbytes
  | hexString hf harguments hbytes => exact .hexString hf harguments hbytes

/-- **Compiling is monotone.** A call that compiles still compiles, to the same bytes, when more
names are defined. -/
theorem compile_of_growsTo {t' : SymbolTable} (hgrows : t.GrowsTo t')
    (h : (c.compile t).result = .ok bytes) : (c.compile t').result = .ok bytes := by
  obtain ⟨command, hmeans, hencode⟩ := compile_eq_ok_iff.mp h
  exact compile_eq_ok_iff.mpr ⟨command, hmeans.of_growsTo hgrows, hencode⟩

/-! ### Display lists and matrices -/

/-- A call of `CallList` compiles if its only argument is resolved to an offset of the segment. -/
theorem compile_callList_eq_ok_iff (hf : c.function? = some .callList) :
    (c.compile t).result = .ok bytes ↔
      ∃ (argument : List Char) (n : Nat), c.arguments = [argument] ∧
        (t.resolve (String.ofList argument)).result = .ok (n : Int) ∧ n < Segment.size ∧
        bytes = [0xDE, 0x00, 0x00, 0x00] ++ Bytes.ofNat 4 (Segment.id * Segment.size + n) := by
  rw [compile_eq_ok_iff]
  constructor
  · rintro ⟨command, hmeans, hencode⟩
    cases hmeans with
    | callList _ harguments hoffset hn =>
      exact ⟨_, _, harguments, hoffset, hn, (Command.encodeWith_eq_ok_iff.mp hencode).2⟩
    | callMatrix hf' | popMatrix hf' | matrix hf' | hexString hf' =>
      rw [hf] at hf'
      cases hf'
  · rintro ⟨argument, n, harguments, hoffset, hn, rfl⟩
    refine ⟨_, .callList hf harguments hoffset hn, ?_⟩
    exact Command.encodeWith_eq_ok_iff.mpr ⟨Segment.address_lt_wordLimit hn, rfl⟩

/-- A call of `CallMatrix` compiles if its only argument has an offset of the segment itself. -/
theorem compile_callMatrix_eq_ok_iff (hf : c.function? = some .callMatrix) :
    (c.compile t).result = .ok bytes ↔
      ∃ (argument : List Char) (n : Nat), c.arguments = [argument] ∧
        t.symbols.get? (String.ofList argument) = some (.resolved n) ∧ n < Segment.size ∧
        bytes = [0xDA, 0x38, 0x00, 0x00] ++ Bytes.ofNat 4 (Segment.id * Segment.size + n) := by
  rw [compile_eq_ok_iff]
  constructor
  · rintro ⟨command, hmeans, hencode⟩
    cases hmeans with
    | callMatrix _ harguments hoffset hn =>
      exact ⟨_, _, harguments, hoffset, hn, (Command.encodeWith_eq_ok_iff.mp hencode).2⟩
    | callList hf' | popMatrix hf' | matrix hf' | hexString hf' =>
      rw [hf] at hf'
      cases hf'
  · rintro ⟨argument, n, harguments, hoffset, hn, rfl⟩
    refine ⟨_, .callMatrix hf harguments hoffset hn, ?_⟩
    exact Command.encodeWith_eq_ok_iff.mpr ⟨Segment.address_lt_wordLimit hn, rfl⟩

/-- A call of `CallList` or `CallMatrix` about a name. -/
structure Names (c : Call) (name : String) : Prop where
  /-- The function is one of the two that take a name. -/
  function : c.function? = some .callList ∨ c.function? = some .callMatrix
  /-- The name is the only argument. -/
  arguments : c.arguments = [name.toList]

theorem Names.callList {name : String} (hnames : c.Names name)
    (hf : c.function? = some .callList) (h : (c.compile t).result = .ok bytes) :
    ∃ n : Nat, (t.resolve name).result = .ok (n : Int) ∧ n < Segment.size ∧
      bytes = [0xDE, 0x00, 0x00, 0x00] ++ Bytes.ofNat 4 (Segment.id * Segment.size + n) := by
  obtain ⟨argument, n, hargument, hresolve, hn, rfl⟩ := (compile_callList_eq_ok_iff hf).mp h
  obtain rfl : name.toList = argument := by simpa [hnames.arguments] using hargument
  rw [String.ofList_toList] at hresolve
  exact ⟨n, hresolve, hn, rfl⟩

theorem Names.callMatrix {name : String} (hnames : c.Names name)
    (hf : c.function? = some .callMatrix) (h : (c.compile t).result = .ok bytes) :
    ∃ n : Nat, t.symbols.get? name = some (.resolved n) ∧ n < Segment.size ∧
      bytes = [0xDA, 0x38, 0x00, 0x00] ++ Bytes.ofNat 4 (Segment.id * Segment.size + n) := by
  obtain ⟨argument, n, hargument, hsymbol, hn, rfl⟩ := (compile_callMatrix_eq_ok_iff hf).mp h
  obtain rfl : name.toList = argument := by simpa [hnames.arguments] using hargument
  rw [String.ofList_toList] at hsymbol
  exact ⟨n, hsymbol, hn, rfl⟩

/-- A call about a name compiles only where the name is defined. -/
theorem Names.isSome_of_compile {name : String} (hnames : c.Names name)
    (h : (c.compile t).result = .ok bytes) : (t.symbols.get? name).isSome := by
  rcases hnames.function with hf | hf
  · obtain ⟨n, hresolve, -⟩ := hnames.callList hf h
    rcases SymbolTable.resolve_eq_ok_iff.mp hresolve with hname | ⟨hname, -⟩ <;> simp [hname]
  · obtain ⟨n, hname, -⟩ := hnames.callMatrix hf h
    simp [hname]

/-- A call about a name that is not defined is refused for that. -/
theorem Names.compile_undefined {name : String} (hnames : c.Names name)
    (hname : t.symbols.get? name = none) :
    (c.compile t).result = .error (.refused ⟨.undefinedSymbol name, none⟩) := by
  have hargument : c.onlyArgument.result = .ok name.toList :=
    onlyArgument_eq_ok_iff.mpr hnames.arguments
  have hlookup : (t.lookup (String.ofList name.toList)).result =
      .error (.refused ⟨.undefinedSymbol name, none⟩) := by
    rw [String.ofList_toList, SymbolTable.lookup, hname]
    rfl
  have hcommand : (c.command t).result = .error (.refused ⟨.undefinedSymbol name, none⟩) := by
    rcases hnames.function with hf | hf
    · rw [Call.command, hf]
      refine Build.result_bind_eq_error_iff.mpr (.inr ⟨_, hargument, ?_⟩)
      refine Build.result_bind_eq_error_iff.mpr (.inl ?_)
      exact Build.result_bind_eq_error_iff.mpr (.inl hlookup)
    · rw [Call.command, hf]
      refine Build.result_bind_eq_error_iff.mpr (.inr ⟨_, hargument, ?_⟩)
      exact Build.result_bind_eq_error_iff.mpr (.inl hlookup)
  rw [compile]
  exact Build.result_bind_eq_error_iff.mpr (.inl hcommand)

/-- **Where the address goes.** A call about a name that stands for an offset compiles to four
bytes and the address of that offset. -/
theorem Names.compile_resolved {name : String} {offset : Int} (hnames : c.Names name)
    (hname : t.symbols.get? name = some (.resolved offset))
    (h : (c.compile t).result = .ok bytes) :
    ∃ (n : Nat) (opening : Bytes), offset = n ∧ n < Segment.size ∧ opening.length = 4 ∧
      bytes = opening ++ Bytes.ofNat 4 (Segment.id * Segment.size + n) := by
  rcases hnames.function with hf | hf
  · obtain ⟨n, hresolve, hn, rfl⟩ := hnames.callList hf h
    have hoffset : offset = n := by simpa [SymbolTable.resolve_eq_ok_iff, hname] using hresolve
    exact ⟨n, _, hoffset, hn, rfl, rfl⟩
  · obtain ⟨n, hsymbol, hn, rfl⟩ := hnames.callMatrix hf h
    have hoffset : offset = n := by simpa [hname] using hsymbol
    exact ⟨n, _, hoffset, hn, rfl, rfl⟩

/-- An external display list is replaced by the placeholder; an external matrix does not
compile. -/
theorem Names.compile_external {name : String} {offset : Int} (hnames : c.Names name)
    (hname : t.symbols.get? name = some .external)
    (hplaceholder : t.symbols.get? t.placeholder = some (.resolved offset))
    (h : (c.compile t).result = .ok bytes) :
    ∃ n : Nat, offset = n ∧ n < Segment.size ∧
      bytes = [0xDE, 0x00, 0x00, 0x00] ++ Bytes.ofNat 4 (Segment.id * Segment.size + n) := by
  rcases hnames.function with hf | hf
  · obtain ⟨n, hresolve, hn, rfl⟩ := hnames.callList hf h
    have hoffset : offset = n := by
      simpa [SymbolTable.resolve_eq_ok_iff, hname, hplaceholder] using hresolve
    exact ⟨n, hoffset, hn, rfl⟩
  · obtain ⟨n, hsymbol, -⟩ := hnames.callMatrix hf h
    rw [hname] at hsymbol
    cases hsymbol

end Call

end ModelPatch

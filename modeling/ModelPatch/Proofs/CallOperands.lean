import Mathlib
import ModelPatch.Bytes.Lemmas
import ModelPatch.Proofs.DecimalText
import ModelPatch.Proofs.HexText
import ModelPatch.Proofs.Refusals

/-!
# Commands are read back

A command has four bytes that say what is to be done and four that are its operand, and neither run
over into the other: from the bytes of a command one can tell the function that was called and what
it was called for. For a name this is its offset, which takes up three bytes behind the number of the
segment; for a count it is the size of that many matrices. Both are checked before they are written,
and what does not pass is refused as an argument. A name that stands for nothing is refused as such
and not as an argument.

Data stand for themselves, whatever the case of their digits.

## Main definitions

* `Call.RefusesArgument`: a call is refused for its argument;
* `Call.SpellsCount`: the spellings of a count;
* `Call.operand?`: the offset or the count that a call is about.

## Main results

* `Call.refusesArgument_callList_iff`, `Call.refusesArgument_callMatrix_iff`: which names are refused
  as arguments;
* `Call.popCount?_of_spellsCount`: which counts are read;
* `Call.exists_word_of_compile`: the two halves of a command;
* `PoolFunction.IsCommand.eq_of_encoding`: neither of them runs over into the other;
* `Call.encodings_read_back`: what the functions compile to, and that it can be read back.
-/

namespace ModelPatch

/-- An address is the number of the segment in one byte and the offset in three. -/
theorem Segment.ofNat_address {n : Nat} (hn : n < Segment.size) :
    Bytes.ofNat 4 (Segment.id * Segment.size + n) = 0x06 :: Bytes.ofNat 3 n := by
  have hsize : Segment.size = 256 ^ 3 := by decide
  rw [hsize] at hn ⊢
  exact Bytes.ofNat_add 1 Segment.id hn

/-- An offset that fits in the segment is read back from the three last bytes of its address. -/
theorem Segment.exists_address_iff (p : Int → Prop) (opening : Bytes) {bytes : Bytes} :
    (∃ n : Nat, p n ∧ n < Segment.size ∧
      bytes = opening ++ Bytes.ofNat 4 (Segment.id * Segment.size + n)) ↔
    ∃ low : Bytes, low.length = 3 ∧ p (Bytes.toNat low) ∧ bytes = opening ++ 0x06 :: low := by
  have hsize : Segment.size = 256 ^ 3 := by decide
  constructor
  · rintro ⟨n, hp, hn, rfl⟩
    have hread : Bytes.toNat (Bytes.ofNat 3 n) = n := by
      rw [Bytes.toNat_ofNat, ← hsize, Nat.mod_eq_of_lt hn]
    exact ⟨Bytes.ofNat 3 n, Bytes.length_ofNat 3 n, hread.symm ▸ hp, by rw [ofNat_address hn]⟩
  · rintro ⟨low, hlength, hp, rfl⟩
    have hn : Bytes.toNat low < Segment.size := by
      rw [hsize, ← hlength]
      exact Bytes.toNat_lt low
    refine ⟨Bytes.toNat low, hp, hn, ?_⟩
    rw [ofNat_address hn, ← hlength, Bytes.ofNat_toNat]

namespace Call

variable {t : SymbolTable} {c : Call} {bytes : Bytes} {name : String} {fault : Fault}

/-! ### Refused arguments -/

/-- A call is refused for its argument. -/
def RefusesArgument (t : SymbolTable) (c : Call) : Prop :=
  ∃ what, (c.compile t).result = .error (.refused ⟨.badArgument what, none⟩)

/-- Once it is known what a call stands for, nothing can go wrong. -/
theorem compile_eq_error_iff :
    (c.compile t).result = .error fault ↔ (c.command t).result = .error fault := by
  rw [compile]
  constructor
  · intro h
    rcases Build.result_bind_eq_error_iff.mp h with hcommand | ⟨command, hcommand, hrest⟩
    · exact hcommand
    · obtain ⟨encoded, hencoded⟩ := (command_eq_ok_iff.mp hcommand).fits.exists_encode
      rw [Build.result_bind, hencoded] at hrest
      cases hrest
  · intro h
    exact Build.result_bind_eq_error_iff.mpr (.inl h)

/-- An offset is refused exactly if it is not in the segment. -/
theorem addressOf_refused_iff {offset : Int} {f : Nat → Command} :
    (∃ what, (addressOf name offset >>= fun address => pure (f address)).result =
      .error (.refused ⟨.badArgument what, none⟩)) ↔ ¬ (0 ≤ offset ∧ offset ≤ 0xFFFFFF) := by
  have hsize : (Segment.size : Int) = 0xFFFFFF + 1 := rfl
  by_cases hin : 0 ≤ offset ∧ offset ≤ 0xFFFFFF
  · have haddress : (addressOf name offset).result =
        .ok (Segment.id * Segment.size + offset.toNat) := by
      rw [addressOf_eq_ok_iff, Segment.address?, if_pos (by omega)]
    rw [Build.result_bind, haddress]
    simp [bind, Except.bind, hin]
  · have haddress : (addressOf name offset).result =
        .error (.refused ⟨.badArgument (.outsideSegment name offset), none⟩) := by
      rw [addressOf, Segment.address?, if_neg (by omega)]
      rfl
    rw [Build.result_bind, haddress]
    simp [bind, Except.bind, hin]

theorem result_command_callList (t : SymbolTable) (name : String) :
    (command t ⟨"CallList", [name.toList]⟩).result =
      (t.resolve name >>= fun offset =>
        addressOf name offset >>= fun address => pure (.runList address)).result := by
  show (t.resolve (String.ofList name.toList) >>= fun offset =>
    addressOf (String.ofList name.toList) offset >>= fun address =>
      pure (Command.runList address)).result = _
  rw [String.ofList_toList]

theorem result_command_callMatrix (t : SymbolTable) (name : String) :
    (command t ⟨"CallMatrix", [name.toList]⟩).result =
      (t.lookup name >>= fun symbol => match symbol with
        | .external => Build.fail (.badArgument (.externalMatrix name))
        | .resolved offset =>
          addressOf name offset >>= fun address => pure (.pushMatrix address)).result := by
  show (t.lookup (String.ofList name.toList) >>= _).result = _
  generalize hname : String.ofList name.toList = spelled
  obtain rfl : spelled = name := hname.symm.trans String.ofList_toList
  rfl

/-- A call of a display list is refused for its argument exactly if that has an offset which is not
in the segment. -/
theorem refusesArgument_callList_iff :
    RefusesArgument t ⟨"CallList", [name.toList]⟩ ↔
      ∃ offset, (t.resolve name).result = .ok offset ∧ ¬ (0 ≤ offset ∧ offset ≤ 0xFFFFFF) := by
  simp only [RefusesArgument, compile_eq_error_iff, result_command_callList]
  constructor
  · rintro ⟨what, h⟩
    rcases Build.result_bind_eq_error_iff.mp h with hresolve | ⟨offset, hresolve, haddress⟩
    · obtain ⟨other, hother⟩ := SymbolTable.failsOnly_resolve t name _ hresolve
      cases hother
    · exact ⟨offset, hresolve, addressOf_refused_iff.mp ⟨what, haddress⟩⟩
  · rintro ⟨offset, hresolve, hout⟩
    obtain ⟨what, haddress⟩ := addressOf_refused_iff.mpr hout
    exact ⟨what, Build.result_bind_eq_error_iff.mpr (.inr ⟨offset, hresolve, haddress⟩)⟩

/-- A call of a matrix is refused for its argument exactly if that is a bank object, or has an
offset which is not in the segment. -/
theorem refusesArgument_callMatrix_iff :
    RefusesArgument t ⟨"CallMatrix", [name.toList]⟩ ↔
      (t.lookup name).result = .ok .external ∨
        ∃ offset, (t.lookup name).result = .ok (.resolved offset) ∧
          ¬ (0 ≤ offset ∧ offset ≤ 0xFFFFFF) := by
  simp only [RefusesArgument, compile_eq_error_iff, result_command_callMatrix]
  constructor
  · rintro ⟨what, h⟩
    rcases Build.result_bind_eq_error_iff.mp h with hlookup | ⟨symbol, hlookup, hrest⟩
    · obtain ⟨other, hother⟩ := SymbolTable.failsOnly_lookup t name _ hlookup
      cases hother
    · cases symbol with
      | external => exact .inl hlookup
      | resolved offset => exact .inr ⟨offset, hlookup, addressOf_refused_iff.mp ⟨what, hrest⟩⟩
  · rintro (hexternal | ⟨offset, hlookup, hout⟩)
    · exact ⟨_, Build.result_bind_eq_error_iff.mpr (.inr ⟨.external, hexternal, rfl⟩)⟩
    · obtain ⟨what, haddress⟩ := addressOf_refused_iff.mpr hout
      exact ⟨what, Build.result_bind_eq_error_iff.mpr (.inr ⟨.resolved offset, hlookup, haddress⟩)⟩

/-! ### Counts -/

/-- The spellings of a count: in base ten with its sign, and if it is not negative in base sixteen
behind `0x`. -/
inductive SpellsCount : Int → List Char → Prop
  /-- In base ten. -/
  | decimal (count : Int) : SpellsCount count (toString count).toList
  /-- In base sixteen. -/
  | hexadecimal {count : Nat} {digits : List Char} (h : Numeral.SpellsHex count digits) :
      SpellsCount count ('0' :: 'x' :: digits)

/-- The size of that many matrices fits in a word. -/
def FitsCount (count : Int) : Prop :=
  0 ≤ 64 * count ∧ 64 * count ≤ 0xFFFFFFFF

instance (count : Int) : Decidable (FitsCount count) :=
  inferInstanceAs (Decidable (_ ∧ _))

theorem fitsCount_natCast_iff {n : Nat} :
    FitsCount n ↔ n * Command.matrixStride < Bytes.wordLimit := by
  have hstride : Command.matrixStride = 64 := rfl
  have hlimit : Bytes.wordLimit = 0xFFFFFFFF + 1 := rfl
  rw [FitsCount, hstride, hlimit]
  omega

/-- What becomes of a number that is read as a count. -/
theorem popCount?_of_integer? {argument : List Char} {base : Base} {number : Option Int}
    (hbase : (if "0x".toList.isPrefixOf (argument.map Char.toLower) then .sixteen else .ten) = base)
    (hnumber : Numeral.integer? base argument = number) :
    popCount? argument = (number.filter fun count => FitsCount count).map Int.toNat := by
  rw [popCount?]
  simp only [hbase, hnumber]
  rcases number with - | count | n
  · rfl
  · by_cases hfits : FitsCount count
    · simp [Option.filter, hfits, fitsCount_natCast_iff.mp hfits]
    · simp [Option.filter, hfits, mt fitsCount_natCast_iff.mpr hfits]
  · have hnegative : ¬ FitsCount (.negSucc n) := by
      rw [FitsCount]
      omega
    simp [Option.filter, hnegative]

/-- **The counts that are read** are those of which the size fits in a word. -/
theorem popCount?_of_spellsCount {count : Int} {text : List Char} (h : SpellsCount count text) :
    popCount? text = if FitsCount count then some count.toNat else none := by
  cases h with
  | decimal count =>
    have hmark := Numeral.mark_isPrefixOf_toString count
    rw [popCount?_of_integer? (if_neg (ne_true_of_eq_false hmark))
      (Numeral.integer?_toString count)]
    by_cases hfits : FitsCount count
    · have hsmall : count.natAbs < Bytes.wordLimit := by
        have hlimit : Bytes.wordLimit = 0xFFFFFFFF + 1 := rfl
        rw [FitsCount] at hfits
        omega
      rw [if_pos (Numeral.length_toDigits_le_of_lt hsmall), if_pos hfits]
      simp [Option.filter, hfits]
    · -- A number with too many digits is not read, but it would not fit in a word either.
      rw [if_neg hfits]
      split <;> simp [Option.filter, hfits]
  | hexadecimal hdigits =>
    rw [popCount?_of_integer? (if_pos rfl) hdigits.integer?_mark]
    split <;> simp [Option.filter, *]

/-- A call of `PopMatrix` compiles if its only argument is a count that fits. -/
theorem compile_popMatrix_eq_ok_iff (hf : c.function? = some .popMatrix) :
    (c.compile t).result = .ok bytes ↔
      ∃ (argument : List Char) (count : Nat), c.arguments = [argument] ∧
        popCount? argument = some count ∧
        bytes = [0xD8, 0x38, 0x00, 0x02] ++ Bytes.ofNat 4 (count * Command.matrixStride) := by
  rw [compile_eq_ok_iff]
  constructor
  · rintro ⟨command, hmeans, hencode⟩
    cases hmeans with
    | popMatrix _ harguments hcount =>
      exact ⟨_, _, harguments, hcount, (Command.encodeWith_eq_ok_iff.mp hencode).2⟩
    | callList hf' | callMatrix hf' | matrix hf' | hexString hf' =>
      rw [hf] at hf'
      cases hf'
  · rintro ⟨argument, count, harguments, hcount, rfl⟩
    refine ⟨_, .popMatrix hf harguments hcount, ?_⟩
    exact Command.encodeWith_eq_ok_iff.mpr ⟨lt_wordLimit_of_popCount? hcount, rfl⟩

theorem refusesArgument_popMatrix {text : List Char} (h : popCount? text = none) :
    RefusesArgument t ⟨"PopMatrix", [text]⟩ := by
  refine ⟨.popCount (String.ofList text), compile_eq_error_iff.mpr ?_⟩
  show (popCommand ⟨"PopMatrix", [text]⟩).result = _
  refine Build.result_bind_eq_error_iff.mpr (.inr ⟨text, rfl, ?_⟩)
  rw [h]
  rfl

/-! ### Operands -/

/-- The offset or the count that a call is about. -/
def operand? (t : SymbolTable) (c : Call) : Option Int :=
  match c.function?, c.arguments with
  | some .callList, [argument] => (t.resolve (String.ofList argument)).result.toOption
  | some .callMatrix, [argument] =>
    (t.symbols.get? (String.ofList argument)).bind Symbol.offset?
  | some .popMatrix, [argument] => (popCount? argument).map fun count : Nat => count
  | _, _ => none

end Call

namespace PoolFunction

/-- The name of a function. -/
def name : PoolFunction → String
  | callList => "CallList"
  | callMatrix => "CallMatrix"
  | popMatrix => "PopMatrix"
  | matrix => "Matrix"
  | hexString => "HexString"

theorem ofName?_eq_some_iff {s : String} {f : PoolFunction} :
    ofName? s = some f ↔ s = f.name := by
  constructor
  · intro h
    unfold ofName? at h
    split at h <;> cases h <;> rfl
  · rintro rfl
    cases f <;> rfl

theorem name_injective : Function.Injective name := by
  intro f f' h
  have hname : ofName? f.name = some f' := ofName?_eq_some_iff.mpr h
  rw [ofName?_eq_some_iff.mpr rfl] at hname
  exact Option.some.inj hname

/-- What is to be done: the first half of a command. -/
def opening : PoolFunction → Bytes
  | callList => [0xDE, 0x00, 0x00, 0x00]
  | callMatrix => [0xDA, 0x38, 0x00, 0x00]
  | popMatrix => [0xD8, 0x38, 0x00, 0x02]
  | matrix | hexString => []

/-- What becomes of an offset or a count: the second half of a command. -/
def word : PoolFunction → Nat → Nat
  | popMatrix, count => count * Command.matrixStride
  | _, offset => Segment.id * Segment.size + offset

/-- Whether calls of a function become commands. -/
def IsCommand (f : PoolFunction) : Prop :=
  f = callList ∨ f = callMatrix ∨ f = popMatrix

variable {f f' : PoolFunction}

theorem IsCommand.length_opening (h : f.IsCommand) : f.opening.length = 4 := by
  rcases h with rfl | rfl | rfl <;> rfl

theorem IsCommand.eq_of_opening (h : f.IsCommand) (h' : f'.IsCommand)
    (heq : f.opening = f'.opening) : f = f' := by
  rcases h with rfl | rfl | rfl <;> rcases h' with rfl | rfl | rfl <;>
    first | rfl | exact absurd heq (by decide)

theorem IsCommand.eq_of_word (h : f.IsCommand) {m n : Nat} (heq : f.word m = f.word n) :
    m = n := by
  have hstride : Command.matrixStride = 64 := rfl
  rcases h with rfl | rfl | rfl <;> simp only [word, hstride] at heq <;> omega

/-- **Neither half of a command runs over into the other.** -/
theorem IsCommand.eq_of_encoding (h : f.IsCommand) (h' : f'.IsCommand) {m n : Nat}
    (hm : f.word m < 256 ^ 4) (hn : f'.word n < 256 ^ 4)
    (heq : f.opening ++ Bytes.ofNat 4 (f.word m) = f'.opening ++ Bytes.ofNat 4 (f'.word n)) :
    f = f' ∧ m = n := by
  have hlength : f.opening.length = f'.opening.length :=
    h.length_opening.trans h'.length_opening.symm
  obtain ⟨hopening, hword⟩ := List.append_inj heq hlength
  obtain rfl := h.eq_of_opening h' hopening
  exact ⟨rfl, h.eq_of_word (Bytes.ofNat_inj hm hn hword)⟩

end PoolFunction

namespace Call

variable {t t' : SymbolTable} {c c' : Call} {bytes : Bytes}

/-- **The two halves of a command.** A call that becomes a command compiles to four bytes for its
function and four for its operand. -/
theorem exists_word_of_compile {f : PoolFunction} (hf : c.function? = some f) (hcommand : f.IsCommand)
    (h : (c.compile t).result = .ok bytes) :
    ∃ n : Nat, c.operand? t = some (n : Int) ∧ f.word n < 256 ^ 4 ∧
      bytes = f.opening ++ Bytes.ofNat 4 (f.word n) := by
  have hlimit : Bytes.wordLimit = 256 ^ 4 := by decide
  rcases hcommand with rfl | rfl | rfl
  · obtain ⟨argument, n, harguments, hoffset, hn, rfl⟩ := (compile_callList_eq_ok_iff hf).mp h
    refine ⟨n, ?_, hlimit ▸ Segment.address_lt_wordLimit hn, rfl⟩
    simp [operand?, hf, harguments, hoffset, Except.toOption]
  · obtain ⟨argument, n, harguments, hoffset, hn, rfl⟩ := (compile_callMatrix_eq_ok_iff hf).mp h
    refine ⟨n, ?_, hlimit ▸ Segment.address_lt_wordLimit hn, rfl⟩
    simp [operand?, hf, harguments, hoffset, Symbol.offset?]
  · obtain ⟨argument, n, harguments, hcount, rfl⟩ := (compile_popMatrix_eq_ok_iff hf).mp h
    refine ⟨n, ?_, hlimit ▸ lt_wordLimit_of_popCount? hcount, rfl⟩
    simp [operand?, hf, harguments, hcount]

/-- The functions of which calls become commands, by their names. -/
theorem exists_isCommand_of_mem (h : c.function ∈ ["CallList", "CallMatrix", "PopMatrix"]) :
    ∃ f, c.function? = some f ∧ f.IsCommand := by
  simp only [List.mem_cons, List.not_mem_nil, or_false] at h
  rcases h with hname | hname | hname
  · exact ⟨.callList, PoolFunction.ofName?_eq_some_iff.mpr hname, .inl rfl⟩
  · exact ⟨.callMatrix, PoolFunction.ofName?_eq_some_iff.mpr hname, .inr (.inl rfl)⟩
  · exact ⟨.popMatrix, PoolFunction.ofName?_eq_some_iff.mpr hname, .inr (.inr rfl)⟩

/-! ### All functions -/

/-- What a call of a display list compiles to, and the offset in it. -/
theorem compile_callList_iff :
    (compile t ⟨"CallList", [name.toList]⟩).result = .ok bytes ↔
      ∃ low : Bytes, low.length = 3 ∧ (t.resolve name).result = .ok (Bytes.toNat low : Int) ∧
        bytes = [0xDE, 0x00, 0x00, 0x00, 0x06] ++ low := by
  rw [compile_callList_eq_ok_iff rfl]
  refine Iff.trans ?_ (Segment.exists_address_iff (fun n => (t.resolve name).result = .ok n)
    [0xDE, 0x00, 0x00, 0x00])
  simp

/-- What a call of a matrix compiles to, and the offset in it. -/
theorem compile_callMatrix_iff :
    (compile t ⟨"CallMatrix", [name.toList]⟩).result = .ok bytes ↔
      ∃ low : Bytes, low.length = 3 ∧
        (t.lookup name).result = .ok (.resolved (Bytes.toNat low : Int)) ∧
        bytes = [0xDA, 0x38, 0x00, 0x00, 0x06] ++ low := by
  rw [compile_callMatrix_eq_ok_iff rfl]
  refine Iff.trans ?_ (Segment.exists_address_iff
    (fun n => (t.lookup name).result = .ok (.resolved n)) [0xDA, 0x38, 0x00, 0x00])
  simp [SymbolTable.lookup_eq_ok_iff]

/-- **Encodings are read back.** A call of a display list or a matrix compiles to five bytes and the
offset that it is about in three; it is refused for its argument exactly if that has an offset which
is not in the segment, or has none because it is a bank object and no display list. A count compiles
to four bytes and the size of that many matrices in four, unless this size is negative or does not
fit; then it is refused. Digits compile to the bytes that they spell. Two calls that become commands
compile to the same bytes exactly if they are of the same function and about the same operand, and
be it in different symbol tables. -/
theorem encodings_read_back (t : SymbolTable) :
    (∀ name : String,
      (∀ bytes, (compile t ⟨"CallList", [name.toList]⟩).result = .ok bytes ↔
        ∃ low : Bytes, low.length = 3 ∧ (t.resolve name).result = .ok (Bytes.toNat low : Int) ∧
          bytes = [0xDE, 0x00, 0x00, 0x00, 0x06] ++ low) ∧
      (RefusesArgument t ⟨"CallList", [name.toList]⟩ ↔
        ∃ offset, (t.resolve name).result = .ok offset ∧
          ¬ (0 ≤ offset ∧ offset ≤ 0xFFFFFF))) ∧
    (∀ name : String,
      (∀ bytes, (compile t ⟨"CallMatrix", [name.toList]⟩).result = .ok bytes ↔
        ∃ low : Bytes, low.length = 3 ∧
          (t.lookup name).result = .ok (.resolved (Bytes.toNat low : Int)) ∧
          bytes = [0xDA, 0x38, 0x00, 0x00, 0x06] ++ low) ∧
      (RefusesArgument t ⟨"CallMatrix", [name.toList]⟩ ↔
        (t.lookup name).result = .ok .external ∨
          ∃ offset, (t.lookup name).result = .ok (.resolved offset) ∧
            ¬ (0 ≤ offset ∧ offset ≤ 0xFFFFFF))) ∧
    (∀ count text, SpellsCount count text →
      (0 ≤ 64 * count ∧ 64 * count ≤ 0xFFFFFFFF →
        (compile t ⟨"PopMatrix", [text]⟩).result =
          .ok ([0xD8, 0x38, 0x00, 0x02] ++ Bytes.ofNat 4 (64 * count).toNat)) ∧
      (¬ (0 ≤ 64 * count ∧ 64 * count ≤ 0xFFFFFFFF) →
        RefusesArgument t ⟨"PopMatrix", [text]⟩)) ∧
    (∀ (data : Bytes) (text : List Char), text.map Char.toUpper = data.hexDigits.toList →
      (compile t ⟨"HexString", [text]⟩).result = .ok data) ∧
    ∀ (t' : SymbolTable) (c c' : Call) (bytes bytes' : Bytes),
      c.function ∈ ["CallList", "CallMatrix", "PopMatrix"] →
      c'.function ∈ ["CallList", "CallMatrix", "PopMatrix"] →
      (c.compile t).result = .ok bytes → (c'.compile t').result = .ok bytes' →
      ∃ operand operand', c.operand? t = some operand ∧ c'.operand? t' = some operand' ∧
        (bytes = bytes' ↔ c.function = c'.function ∧ operand = operand') := by
  refine ⟨fun name => ⟨fun bytes => compile_callList_iff, refusesArgument_callList_iff⟩,
    fun name => ⟨fun bytes => compile_callMatrix_iff, refusesArgument_callMatrix_iff⟩,
    fun count text hspells => ⟨fun hfits => ?_, fun hout => ?_⟩, fun data text hdigits => ?_,
    fun t' c c' bytes bytes' hf hf' h h' => ?_⟩
  · have hcount : popCount? text = some count.toNat :=
      (popCount?_of_spellsCount hspells).trans (if_pos hfits)
    have hsize : (64 * count).toNat = count.toNat * Command.matrixStride := by
      have hstride : Command.matrixStride = 64 := rfl
      rw [hstride]
      omega
    exact (compile_popMatrix_eq_ok_iff rfl).mpr ⟨text, count.toNat, rfl, hcount, by rw [hsize]⟩
  · exact refusesArgument_popMatrix ((popCount?_of_spellsCount hspells).trans (if_neg hout))
  · have hread : Bytes.ofHexDigits? text = some data := Bytes.ofHexDigits?_of_toUpper hdigits
    exact compile_eq_ok_iff.mpr ⟨_, .hexString rfl rfl hread, rfl⟩
  · obtain ⟨f, hfunction, hcommand⟩ := exists_isCommand_of_mem hf
    obtain ⟨f', hfunction', hcommand'⟩ := exists_isCommand_of_mem hf'
    obtain ⟨n, hn, hfits, rfl⟩ := exists_word_of_compile hfunction hcommand h
    obtain ⟨n', hn', hfits', rfl⟩ := exists_word_of_compile hfunction' hcommand' h'
    refine ⟨n, n', hn, hn', ?_⟩
    rw [PoolFunction.ofName?_eq_some_iff.mp hfunction,
      PoolFunction.ofName?_eq_some_iff.mp hfunction']
    constructor
    · intro heq
      obtain ⟨rfl, rfl⟩ := hcommand.eq_of_encoding hcommand' hfits hfits' heq
      exact ⟨rfl, rfl⟩
    · rintro ⟨hname, hoperand⟩
      obtain rfl : f = f' := PoolFunction.name_injective hname
      rw [Int.ofNat.inj hoperand]

/-- Symbols at both ends of what an address can hold, and a bank object. -/
def boundarySymbols : SymbolTable where
  symbols := ⟨[("DL_LAST", .resolved 0xFFFFFF), ("DL_PAST", .resolved 0x1000000),
    ("DL_BANK", .external), ("DL_DF_COMMAND", .resolved 0)], by decide⟩
  placeholder := "DL_DF_COMMAND"

theorem encodings_read_back_boundary :
    (compile boundarySymbols ⟨"CallList", ["DL_LAST".toList]⟩).result =
        .ok [0xDE, 0x00, 0x00, 0x00, 0x06, 0xFF, 0xFF, 0xFF] ∧
      RefusesArgument boundarySymbols ⟨"CallList", ["DL_PAST".toList]⟩ ∧
      (compile boundarySymbols ⟨"CallMatrix", ["DL_LAST".toList]⟩).result =
        .ok [0xDA, 0x38, 0x00, 0x00, 0x06, 0xFF, 0xFF, 0xFF] ∧
      RefusesArgument boundarySymbols ⟨"CallMatrix", ["DL_BANK".toList]⟩ ∧
      SpellsCount (0x3FFFFFF : Nat) "0x03ffFFff".toList ∧
      (compile boundarySymbols ⟨"PopMatrix", ["0x03ffFFff".toList]⟩).result =
        .ok [0xD8, 0x38, 0x00, 0x02, 0xFF, 0xFF, 0xFF, 0xC0] ∧
      RefusesArgument boundarySymbols ⟨"PopMatrix", [(toString (0x4000000 : Int)).toList]⟩ ∧
      (compile boundarySymbols ⟨"HexString", ["aBcD".toList]⟩).result = .ok [0xAB, 0xCD] ∧
      ∃ bank placeholder,
        operand? boundarySymbols ⟨"CallList", ["DL_BANK".toList]⟩ = some bank ∧
        operand? boundarySymbols ⟨"CallList", ["DL_DF_COMMAND".toList]⟩ = some placeholder ∧
        bank = placeholder := by
  obtain ⟨hlist, hmatrix, hcount, hdata, hsame⟩ := encodings_read_back boundarySymbols
  have hspells : SpellsCount (0x3FFFFFF : Nat) "0x03ffFFff".toList :=
    .hexadecimal ⟨1, by decide +kernel⟩
  have hbank : (compile boundarySymbols ⟨"CallList", ["DL_BANK".toList]⟩).result =
      .ok ([0xDE, 0x00, 0x00, 0x00, 0x06] ++ [0, 0, 0]) :=
    ((hlist "DL_BANK").1 _).mpr ⟨[0, 0, 0], rfl, rfl, rfl⟩
  have hplace : (compile boundarySymbols ⟨"CallList", ["DL_DF_COMMAND".toList]⟩).result =
      .ok ([0xDE, 0x00, 0x00, 0x00, 0x06] ++ [0, 0, 0]) :=
    ((hlist "DL_DF_COMMAND").1 _).mpr ⟨[0, 0, 0], rfl, rfl, rfl⟩
  obtain ⟨bank, placeholder, hoperand, hoperand', hiff⟩ :=
    hsame boundarySymbols _ _ _ _ (by decide) (by decide) hbank hplace
  refine ⟨?_, ?_, ?_, ?_, hspells, ?_, ?_, ?_, bank, placeholder, hoperand, hoperand',
    (hiff.mp rfl).2⟩
  · exact ((hlist "DL_LAST").1 _).mpr ⟨[0xFF, 0xFF, 0xFF], rfl, rfl, rfl⟩
  · exact (hlist "DL_PAST").2.mpr ⟨0x1000000, rfl, by decide⟩
  · exact ((hmatrix "DL_LAST").1 _).mpr ⟨[0xFF, 0xFF, 0xFF], rfl, rfl, rfl⟩
  · exact (hmatrix "DL_BANK").2.mpr (.inl rfl)
  · exact (hcount _ _ hspells).1 (by decide)
  · exact (hcount 0x4000000 _ (.decimal _)).2 (by decide)
  · exact hdata [0xAB, 0xCD] _ (by decide)

end Call

end ModelPatch

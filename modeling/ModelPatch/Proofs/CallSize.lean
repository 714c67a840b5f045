import Mathlib
import ModelPatch.Proofs.GroupCode
import ModelPatch.Proofs.MatrixHalves

/-!
# How large a call is

How many bytes a call compiles to can be told from its text: commands have eight, a matrix has 64,
and data have as many as their digits spell. No symbol is needed, so the sizes of all calls are
known before a single one is compiled, and so are the places of all groups.

## Main definitions

* `Call.size`, `PlacedCall.size`, `Group.size`: the sizes, from the text;
* `Group.endsInCallList`: whether the last call of a group runs a display list, from the text.

## Main results

* `Call.length_of_compile`: a call that compiles has its size;
* `Group.CompilesTo.length_flatMap`: so the calls of a group together have the size of the group;
* `Group.CompilesTo.endsInList_eq`: a group ends in a display list if its text says so.
-/

namespace ModelPatch

/-! ### Lists -/

/-- Where two lists are related item by item, whatever related items agree on the lists agree on. -/
theorem map_eq_map_of_forall₂ {α β γ : Type} {r : α → β → Prop} {f : α → γ} {f' : β → γ}
    (hr : ∀ a b, r a b → f a = f' b) {xs : List α} {ys : List β} (h : List.Forall₂ r xs ys) :
    xs.map f = ys.map f' := by
  have hmap : List.Forall₂ (· = ·) (xs.map f) (ys.map f') :=
    List.rel_map (fun a b hab => hr a b hab) h
  rwa [List.forall₂_eq_eq_eq] at hmap

/-! ### Matrices -/

theorem Transform.length_of_encode {t : Transform} {bytes : Bytes} (h : t.encode = .ok bytes) :
    bytes.length = 64 := by
  rw [Transform.encode] at h
  cases hmatrix : t.matrix with
  | error fault => simp [hmatrix, bind, Except.bind] at h
  | ok grid =>
    rw [hmatrix] at h
    exact Grid.length_of_pack h

namespace Call

theorem length_of_matrixBytes {arguments : Vector (List Char) 9} {bytes : Bytes}
    (h : matrixBytes arguments = .ok bytes) : bytes.length = 64 := by
  rw [matrixBytes] at h
  cases htransform : Transform.parse arguments with
  | error fault => simp [htransform, bind, Except.bind] at h
  | ok transform =>
    rw [htransform] at h
    exact Transform.length_of_encode h

/-! ### Single calls -/

/-- The number of bytes that a call compiles to, if it compiles. -/
def size (c : Call) : Nat :=
  match c.function?, c.arguments with
  | some .callList, _ | some .callMatrix, _ | some .popMatrix, _ => 8
  | some .matrix, _ => 64
  | some .hexString, [digits] => ((Bytes.ofHexDigits? digits).getD []).length
  | some .hexString, _ | none, _ => 0

variable {t : SymbolTable} {c : Call} {bytes : Bytes}

/-- **A call has the size that its text says**, whatever its names stand for. -/
theorem length_of_compile (h : (c.compile t).result = .ok bytes) : bytes.length = c.size := by
  obtain ⟨command, hmeans, hencode⟩ := compile_eq_ok_iff.mp h
  cases hmeans with
  | callList hf =>
    obtain ⟨-, rfl⟩ := Command.encodeWith_eq_ok_iff.mp hencode
    simp [size, hf]
  | callMatrix hf =>
    obtain ⟨-, rfl⟩ := Command.encodeWith_eq_ok_iff.mp hencode
    simp [size, hf]
  | popMatrix hf =>
    obtain ⟨-, rfl⟩ := Command.encodeWith_eq_ok_iff.mp hencode
    simp [size, hf]
  | matrix hf _ hbytes =>
    obtain rfl := Except.ok.inj hencode
    rw [length_of_matrixBytes hbytes]
    simp [size, hf]
  | hexString hf harguments hbytes =>
    obtain rfl := Except.ok.inj hencode
    simp [size, hf, harguments, hbytes]

theorem parse_eq_ok_iff {text : List Char} :
    (parse text).result = .ok c ↔ ofText? (Text.strip text) = some c := by
  rw [parse]
  cases ofText? (Text.strip text) <;> simp

theorem compileText_eq_ok_iff {text : List Char} :
    (compileText t text).result = .ok bytes ↔
      ∃ call, (parse text).result = .ok call ∧ (call.compile t).result = .ok bytes := by
  rw [compileText, Build.result_bind_eq_ok_iff]

end Call

namespace PlacedCall

/-- The call that stands in the text, if one does. -/
def call? (placed : PlacedCall) : Option Call :=
  Call.ofText? (Text.strip placed.text)

/-- The number of bytes that a call compiles to, if it compiles. -/
def size (placed : PlacedCall) : Nat :=
  (placed.call?.map Call.size).getD 0

theorem length_of_compileText {placed : PlacedCall} {t : SymbolTable} {bytes : Bytes}
    (h : (Call.compileText t placed.text).result = .ok bytes) : bytes.length = placed.size := by
  obtain ⟨call, hcall, hbytes⟩ := Call.compileText_eq_ok_iff.mp h
  rw [size, call?, Call.parse_eq_ok_iff.mp hcall, Option.map_some, Option.getD_some,
    Call.length_of_compile hbytes]

example : size ⟨"HexString(AB CD EF)".toList, ⟨"pool", 1⟩⟩ = 3 := by decide +kernel

end PlacedCall

/-! ### Groups -/

namespace Group

variable {t : SymbolTable} {g : Group} {compiled : List (Call × Bytes)}

/-- The number of bytes that a group compiles to, if it compiles. -/
def size (g : Group) : Nat :=
  (g.calls.map PlacedCall.size).sum

/-- Whether the last call of a group runs a display list. -/
def endsInCallList (g : Group) : Bool :=
  (g.calls.getLast?.bind PlacedCall.call?).any fun call => call.function? = some .callList

/-- The place in a group at which its branch flag goes, if it gets one: the second byte of its last
call. -/
def branchPlace (g : Group) : Nat :=
  (g.calls.dropLast.map PlacedCall.size).sum + 1

theorem CompilesTo.map_size (h : CompilesTo t g compiled) :
    g.calls.map PlacedCall.size = compiled.map fun pair => pair.2.length := by
  refine map_eq_map_of_forall₂ (fun placed pair hcall => ?_) h
  have hcode := Call.compileText_eq_ok_iff.mpr ⟨pair.1, hcall⟩
  exact (PlacedCall.length_of_compileText hcode).symm

/-- The calls of a group compile, from their texts, to its bytes. -/
theorem CompilesTo.forall₂_compileText (h : CompilesTo t g compiled) :
    List.Forall₂ (fun placed code => (Call.compileText t placed.text).result = .ok code) g.calls
      (compiled.map Prod.snd) :=
  List.forall₂_map_right_iff.mpr <| List.Forall₂.imp
    (fun _ pair hcall => Call.compileText_eq_ok_iff.mpr ⟨pair.1, hcall⟩) h

/-- A group that compiles has the size that its text says. -/
theorem CompilesTo.length_flatMap (h : CompilesTo t g compiled) :
    (compiled.flatMap Prod.snd).length = g.size := by
  rw [List.length_flatMap, size, h.map_size]

/-- A group that compiles ends in a display list if its text says so. -/
theorem CompilesTo.endsInList_eq (h : CompilesTo t g compiled) :
    endsInList (compiled.map Prod.fst) = g.endsInCallList := by
  have hcalls : g.calls.map PlacedCall.call? = compiled.map fun pair => some pair.1 :=
    map_eq_map_of_forall₂ (fun placed pair hcall => Call.parse_eq_ok_iff.mp hcall.1) h
  have hlast : g.calls.getLast?.map PlacedCall.call? =
      compiled.getLast?.map fun pair => some pair.1 := by
    rw [← List.getLast?_map, hcalls, List.getLast?_map]
  rw [endsInList, endsInCallList, List.getLast?_map]
  cases hplaced : g.calls.getLast? <;> cases hpair : compiled.getLast? <;> simp_all

end Group

end ModelPatch

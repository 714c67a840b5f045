import Mathlib
import ModelPatch.AliasTable
import ModelPatch.Proofs.ByteReads
import ModelPatch.Proofs.CallCode

/-!
# What a group compiles to

The calls of a group are compiled one by one and laid out one behind the other. If the last of them
runs a display list, one byte is then overwritten in place, and this is where it could go wrong: the
byte is found by counting back from the end of the group. `codeOf` says what comes out, and
`getElem?_codeOf` says what the overwriting spares, namely every byte of every command but the
second byte of the last one.

## Main definitions

* `Group.CompilesTo`: the calls of a group with what they compile to;
* `Group.codeOf`: the bytes of compiled calls, branch flag included;
* `Group.callStart`: where a call starts in its group.

## Main results

* `Group.compile_eq_ok_iff`: a group compiles exactly if its calls do; the overwriting cannot fail;
* `Group.word?_codeOf`: the operands of the commands of a group are not touched by the branch flag.
-/

namespace ModelPatch

/-- Steps taken for each item of a list succeed together if each succeeds. -/
theorem Build.result_mapM_eq_ok_iff {α β : Type} {f : α → Build β} {xs : List α} {ys : List β} :
    (xs.mapM f).result = .ok ys ↔ List.Forall₂ (fun x y => (f x).result = .ok y) xs ys := by
  induction xs generalizing ys with
  | nil => cases ys <;> simp
  | cons x xs ih =>
    simp only [List.mapM_cons, Build.result_bind_eq_ok_iff, Build.result_pure, Except.ok.injEq, ih]
    constructor
    · rintro ⟨y, hy, rest, hrest, rfl⟩
      exact .cons hy hrest
    · rintro (_ | ⟨hy, hrest⟩)
      exact ⟨_, hy, _, hrest, rfl⟩

namespace Group

variable {t : SymbolTable} {g : Group} {compiled : List (Call × Bytes)} {bytes code : Bytes}

/-! ### Single calls -/

theorem atCall_eq_ok_iff {α : Type} {location : Location} {step : Build α} {a : α} :
    (atCall location step).result = .ok a ↔ step.result = .ok a := by
  rw [atCall]
  split
  · next e he => simp [he]
  · rfl

theorem compileCall_eq_ok_iff {placed : PlacedCall} {pair : Call × Bytes} :
    (compileCall t placed).result = .ok pair ↔
      (Call.parse placed.text).result = .ok pair.1 ∧ (pair.1.compile t).result = .ok pair.2 := by
  rw [compileCall, atCall_eq_ok_iff]
  simp only [Build.result_bind_eq_ok_iff, Build.result_pure, Except.ok.injEq]
  constructor
  · rintro ⟨call, hcall, bytes, hbytes, rfl⟩
    exact ⟨hcall, hbytes⟩
  · rintro ⟨hcall, hbytes⟩
    exact ⟨pair.1, hcall, pair.2, hbytes, rfl⟩

/-- The calls of a group, each with what it compiles to. -/
def CompilesTo (t : SymbolTable) (g : Group) (compiled : List (Call × Bytes)) : Prop :=
  List.Forall₂
    (fun placed pair => (Call.parse placed.text).result = .ok pair.1 ∧
      (pair.1.compile t).result = .ok pair.2)
    g.calls compiled

theorem mapM_compileCall_eq_ok_iff :
    (g.calls.mapM (compileCall t)).result = .ok compiled ↔ CompilesTo t g compiled := by
  rw [Build.result_mapM_eq_ok_iff, CompilesTo]
  simp only [compileCall_eq_ok_iff]

theorem CompilesTo.compile {call : Call} (h : CompilesTo t g compiled)
    (hmem : (call, bytes) ∈ compiled) : (call.compile t).result = .ok bytes := by
  rw [CompilesTo, List.forall₂_iff_get] at h
  obtain ⟨j, hj, hpair⟩ := List.mem_iff_getElem.mp hmem
  have hcall := (h.2 j (by omega) hj).2
  rwa [List.get_eq_getElem, hpair] at hcall

/-- A group that compiles still does, to the same bytes, when more names are defined. -/
theorem CompilesTo.of_growsTo {t' : SymbolTable} (hgrows : t.GrowsTo t')
    (h : CompilesTo t g compiled) : CompilesTo t' g compiled :=
  List.Forall₂.imp (fun _ _ hcall => ⟨hcall.1, Call.compile_of_growsTo hgrows hcall.2⟩) h

/-- Each call of a group is parsed and compiled where it stands in the list. -/
theorem CompilesTo.exists_getElem? {j : Nat} {placed : PlacedCall} (h : CompilesTo t g compiled)
    (hplaced : g.calls[j]? = some placed) :
    ∃ pair, compiled[j]? = some pair ∧ (Call.parse placed.text).result = .ok pair.1 ∧
      (pair.1.compile t).result = .ok pair.2 := by
  rw [CompilesTo, List.forall₂_iff_get] at h
  obtain ⟨hj, rfl⟩ := List.getElem?_eq_some_iff.mp hplaced
  have hj' : j < compiled.length := by omega
  exact ⟨compiled[j], List.getElem?_eq_getElem hj', h.2 j hj hj'⟩

/-! ### Where the calls stand -/

/-- Where the call with index `j` starts in its group. -/
def callStart (compiled : List (Call × Bytes)) (j : Nat) : Nat :=
  ((compiled.take j).flatMap Prod.snd).length

theorem callStart_succ {j : Nat} {call : Call} (h : compiled[j]? = some (call, bytes)) :
    callStart compiled (j + 1) = callStart compiled j + bytes.length := by
  simp [callStart, List.take_add_one, h]

theorem callStart_mono (compiled : List (Call × Bytes)) {i j : Nat} (h : i ≤ j) :
    callStart compiled i ≤ callStart compiled j := by
  obtain ⟨d, rfl⟩ := Nat.exists_eq_add_of_le h
  rw [callStart, callStart, List.take_add, List.flatMap_append, List.length_append]
  exact Nat.le_add_right _ _

/-- The bytes of a call stand where the call starts. -/
theorem slice?_flatMap {j : Nat} {call : Call} (h : compiled[j]? = some (call, bytes)) :
    Bytes.slice? (compiled.flatMap Prod.snd) (callStart compiled j) bytes.length = some bytes := by
  obtain ⟨hj, hpair⟩ := List.getElem?_eq_some_iff.mp h
  have hsplit : compiled.flatMap Prod.snd =
      (compiled.take j).flatMap Prod.snd ++
        (bytes ++ (compiled.drop (j + 1)).flatMap Prod.snd) := by
    conv_lhs => rw [← List.take_append_drop j compiled, List.drop_eq_getElem_cons hj, hpair]
    rw [List.flatMap_append, List.flatMap_cons]
  rw [hsplit, Bytes.slice?_eq_some_iff, callStart, List.drop_left, List.take_left]
  exact ⟨rfl, rfl⟩

/-! ### The branch flag -/

/-- The bytes of compiled calls. If the last call runs a display list, the second of its eight
bytes holds the branch flag. -/
def codeOf (compiled : List (Call × Bytes)) : Bytes :=
  let plain := compiled.flatMap Prod.snd
  if endsInList (compiled.map Prod.fst) then
    plain.set (plain.length - Command.branchDistance) Command.branchFlag
  else
    plain

/-- What ends in a call to run a display list has a last item, and that is with such a call. -/
theorem exists_concat_of_endsInList {α : Type} {call : α → Call} {xs : List α}
    (hends : endsInList (xs.map call) = true) :
    ∃ front x, xs = front ++ [x] ∧ (call x).function? = some .callList := by
  obtain ⟨front, x, rfl⟩ : ∃ front x, xs = front ++ [x] :=
    (List.eq_nil_or_concat' xs).resolve_left fun hnil => by simp [hnil, endsInList] at hends
  exact ⟨front, x, rfl, by simpa [endsInList] using hends⟩

/-- The last call of a group that ends in a display list compiles to a command to run it. -/
theorem CompilesTo.exists_last_call (h : CompilesTo t g compiled)
    (hends : endsInList (compiled.map Prod.fst) = true) :
    ∃ front call n, compiled = front ++ [(call, [0xDE, 0x00, 0x00, 0x00] ++ Bytes.ofNat 4 n)] := by
  obtain ⟨front, ⟨call, bytes⟩, rfl, hf⟩ := exists_concat_of_endsInList hends
  have hcompile := h.compile (List.mem_append_right front (List.mem_singleton_self (call, bytes)))
  obtain ⟨argument, n, -, -, -, rfl⟩ := (Call.compile_callList_eq_ok_iff hf).mp hcompile
  exact ⟨front, call, _, rfl⟩

/-- A group that ends in a display list has a last call, which stands in its last eight bytes. -/
theorem CompilesTo.exists_last (h : CompilesTo t g compiled)
    (hends : endsInList (compiled.map Prod.fst) = true) :
    ∃ j, compiled.length = j + 1 ∧
      callStart compiled j + 8 = (compiled.flatMap Prod.snd).length := by
  obtain ⟨front, call, n, rfl⟩ := h.exists_last_call hends
  refine ⟨front.length, by rw [List.length_append, List.length_singleton], ?_⟩
  rw [callStart, List.take_left, List.flatMap_append, List.length_append]
  simp

/-- **A group compiles exactly if its calls do.** In particular the overwriting always finds its
byte. -/
theorem compile_eq_ok_iff :
    (g.compile t).result = .ok code ↔
      ∃ compiled, CompilesTo t g compiled ∧ code = codeOf compiled := by
  rw [compile, Build.result_bind_eq_ok_iff]
  refine exists_congr fun compiled => ?_
  rw [mapM_compileCall_eq_ok_iff]
  refine and_congr_right fun hcompiled => ?_
  rw [codeOf]
  by_cases hends : endsInList (compiled.map Prod.fst) = true
  · obtain ⟨j, -, hlast⟩ := hcompiled.exists_last hends
    have hroom : 0 < Command.branchDistance ∧
        Command.branchDistance ≤ (compiled.flatMap Prod.snd).length := by
      rw [← hlast, Command.branchDistance]
      omega
    rw [if_pos hends, if_pos hends, Bytes.setFromEnd?, if_pos hroom, Build.result_need_some,
      Except.ok.injEq, eq_comm]
  · rw [if_neg hends, if_neg hends, Build.result_pure, Except.ok.injEq, eq_comm]

/-- **What the branch flag spares**: every byte of every command, but for the second. -/
theorem CompilesTo.getElem?_codeOf (h : CompilesTo t g compiled) {j : Nat} {call : Call}
    (hj : compiled[j]? = some (call, bytes)) (hlen : bytes.length = 8) {k : Nat} (hk : k < 8)
    (hflag : k ≠ 1) : (codeOf compiled)[callStart compiled j + k]? = bytes[k]? := by
  have hplain := (Bytes.slice?_eq_some_iff_getElem?.mp (slice?_flatMap hj)).2 k (by omega)
  rw [codeOf]
  split
  · next hends =>
    obtain ⟨last, hlength, hlast⟩ := h.exists_last hends
    rw [List.getElem?_set_ne, hplain]
    have hjlt : j < compiled.length := (List.getElem?_eq_some_iff.mp hj).1
    rcases Nat.lt_or_ge j last with hlt | hge
    · have hnext := callStart_mono compiled (Nat.succ_le_of_lt hlt)
      rw [callStart_succ hj] at hnext
      rw [Command.branchDistance]
      omega
    · obtain rfl : j = last := by omega
      rw [Command.branchDistance]
      omega
  · exact hplain

/-- Operands are not touched by the branch flag. -/
theorem CompilesTo.word?_codeOf (h : CompilesTo t g compiled) {j n : Nat} {call : Call}
    {opening : Bytes} (hj : compiled[j]? = some (call, opening ++ Bytes.ofNat 4 n))
    (hopening : opening.length = 4) (hn : n < Bytes.wordLimit) :
    Bytes.word? (codeOf compiled) (callStart compiled j + 4) = some n := by
  refine Bytes.word?_eq_some_of_ofNat hn (Bytes.slice?_eq_some_iff_getElem?.mpr ⟨by simp, ?_⟩)
  intro k hk
  rw [Nat.add_assoc, h.getElem?_codeOf hj (by simp [hopening]) (by omega) (by omega),
    List.getElem?_append_right (by omega), hopening, Nat.add_sub_cancel_left]

end Group

end ModelPatch

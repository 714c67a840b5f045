import Mathlib
import ModelPatch.Proofs.TwoPass

/-!
# Branch flags, byte by byte

Compiled calls, put one behind the other as they stand in the source, are the table but for the
branch flags. A flag is set by counting back from the end of what has been assembled so far, at a
time when groups of all lengths stand in front of it, so it could hit the wrong byte or the wrong
group: the one before, if its own group is empty, or data that look like a command to run a display
list. It hits neither. The bytes that differ are the second bytes of the last commands of those
groups whose text ends in a call to run a display list, and each was zero and is one.

The places are counted here on the bytes of the groups, and not on the sizes that can be told from
their texts, so that nothing depends on these.

## Main definitions

* `Bytes.Flagged`: a byte string with branch flags set over zero bytes;
* `Group.flagged`: the bytes of a group with the branch flag set, if it gets one;
* `Group.IsFlagPlace`: the places of the branch flags, counted back from the ends of the groups.

## Main results

* `Bytes.Flagged.ne_iff`: a flagged string differs from the plain one exactly where flags are set;
* `Group.CompilesTo.flagged`: what is done to a single group;
* `AliasTable.branch_flags`: where a table differs from the bytes of its calls, and how.
-/

namespace ModelPatch

/-! ### Flags in byte strings -/

/-- A byte string with branch flags set at some places, each over a zero byte. -/
structure Bytes.Flagged (places : Nat → Prop) (plain flagged : Bytes) : Prop
    extends Marked places plain flagged where
  /-- There was a zero byte at each of the places. -/
  zero : ∀ k, places k → plain[k]? = some 0

namespace Bytes

variable {places places' : Nat → Prop} {plain plain' flagged flagged' : Bytes}

theorem Flagged.congr (h : Flagged places plain flagged) (hiff : ∀ k, places' k ↔ places k) :
    Flagged places' plain flagged :=
  ⟨h.toMarked.congr hiff, fun k hk => h.zero k ((hiff k).mp hk)⟩

theorem flagged_nowhere (plain : Bytes) : Flagged (fun _ => False) plain plain :=
  ⟨marked_nowhere plain, fun _ h => h.elim⟩

/-- Flagged strings are put together with the places of the second one shifted. -/
theorem Flagged.append (h : Flagged places plain flagged) (h' : Flagged places' plain' flagged') :
    Flagged (fun k => places k ∨ ∃ j, k = plain.length + j ∧ places' j) (plain ++ plain')
      (flagged ++ flagged') := by
  refine ⟨h.toMarked.append h'.toMarked, ?_⟩
  rintro k (hk | ⟨j, rfl, hj⟩)
  · rw [List.getElem?_append_left (h.lt_length hk), h.zero k hk]
  · rw [List.getElem?_append_right (by omega), Nat.add_sub_cancel_left, h'.zero j hj]

/-- A flagged string differs from the plain one at the places of the flags, and only there. -/
theorem Flagged.ne_iff (h : Flagged places plain flagged) (k : Nat) :
    flagged[k]? ≠ plain[k]? ↔ places k := by
  constructor
  · intro hne
    by_contra hk
    exact hne (h.rest k hk)
  · intro hk
    rw [h.flag k hk, h.zero k hk]
    decide

end Bytes

/-! ### Flags in groups -/

namespace Group

variable {t : SymbolTable} {g : Group} {compiled : List (Call × Bytes)}

/-- The bytes of a group with the branch flag set, if it gets one. -/
def flagged (g : Group) (plain : Bytes) : Bytes :=
  if g.endsInCallList then plain.set (plain.length - 7) 0x01 else plain

theorem length_flagged (g : Group) (plain : Bytes) : (g.flagged plain).length = plain.length := by
  rw [flagged]
  split
  · exact List.length_set
  · rfl

theorem CompilesTo.codeOf_eq_flagged (h : CompilesTo t g compiled) :
    codeOf compiled = g.flagged (compiled.flatMap Prod.snd) := by
  rw [codeOf, flagged, h.endsInList_eq]
  rfl

/-- The branch flag of a group is set seven bytes before the end of it, over a zero byte. -/
theorem CompilesTo.flagged (h : CompilesTo t g compiled) :
    Bytes.Flagged
      (fun k => g.endsInCallList = true ∧ k + 7 = (compiled.flatMap Prod.snd).length)
      (compiled.flatMap Prod.snd) (g.flagged (compiled.flatMap Prod.snd)) := by
  rw [← h.codeOf_eq_flagged]
  refine ⟨h.marked_codeOf.congr fun k => and_congr_right fun hends => ?_, ?_⟩
  · rw [← h.branchPlace_add hends, Command.branchDistance, Nat.add_right_cancel_iff]
  · rintro k ⟨hends, hk⟩
    obtain ⟨front, call, n, rfl⟩ := h.exists_last_call (h.endsInList_eq.trans hends)
    rw [List.flatMap_append, List.flatMap_singleton] at hk ⊢
    have hsecond : k = (front.flatMap Prod.snd).length + 1 := by
      simp only [List.length_append, List.length_cons, List.length_nil, Bytes.length_ofNat] at hk
      omega
    rw [hsecond, List.getElem?_append_right (Nat.le_add_right _ _), Nat.add_sub_cancel_left]
    rfl

/-- A place seven bytes before the end of a group that ends in a display list, where groups come
with the bytes of their calls. -/
def IsFlagPlace (pieces : List (Group × Bytes)) (k : Nat) : Prop :=
  ∃ front g plain back, pieces = front ++ (g, plain) :: back ∧ g.endsInCallList = true ∧
    k + 7 = (front.flatMap Prod.snd).length + plain.length

theorem not_isFlagPlace_nil (k : Nat) : ¬ IsFlagPlace [] k := by
  rintro ⟨front, g, plain, back, hsplit, -⟩
  simp at hsplit

/-- A flag stands in the first group or, that far behind its end, in the others, if these have room
for theirs. -/
theorem isFlagPlace_cons {piece : Group × Bytes} {rest : List (Group × Bytes)} {k : Nat}
    (hroom : ∀ other ∈ rest, other.1.endsInCallList = true → 7 ≤ other.2.length) :
    IsFlagPlace (piece :: rest) k ↔
      (piece.1.endsInCallList = true ∧ k + 7 = piece.2.length) ∨
        ∃ j, k = piece.2.length + j ∧ IsFlagPlace rest j := by
  constructor
  · rintro ⟨front, g, plain, back, hsplit, hends, hk⟩
    rcases List.cons_eq_append_iff.mp hsplit with ⟨rfl, hlast⟩ | ⟨front, rfl, rfl⟩
    · obtain ⟨rfl, rfl⟩ := List.cons.inj hlast
      exact .inl ⟨hends, by simpa using hk⟩
    · -- the flag of a later group lies in that group, and not before it in the first one
      have hlong : 7 ≤ plain.length := hroom (g, plain) (by simp) hends
      rw [List.flatMap_cons, List.length_append] at hk
      exact .inr ⟨k - piece.2.length, by omega, front, g, plain, back, rfl, hends, by omega⟩
  · rintro (⟨hends, hk⟩ | ⟨j, rfl, front, g, plain, back, rfl, hends, hk⟩)
    · exact ⟨[], piece.1, piece.2, rest, rfl, hends, by simpa using hk⟩
    · refine ⟨piece :: front, g, plain, back, rfl, hends, ?_⟩
      rw [List.flatMap_cons, List.length_append]
      omega

/-- Groups that compile, with the symbols in force at each, have their flags at the flag places. -/
theorem flagged_flatMap {pieces : List (Group × Bytes)}
    (hpieces : ∀ piece ∈ pieces, ∃ t compiled, CompilesTo t piece.1 compiled ∧
      piece.2 = compiled.flatMap Prod.snd) :
    Bytes.Flagged (IsFlagPlace pieces) (pieces.flatMap Prod.snd)
      (pieces.flatMap fun piece => piece.1.flagged piece.2) := by
  induction pieces with
  | nil => exact (Bytes.flagged_nowhere []).congr fun k => iff_false_intro (not_isFlagPlace_nil k)
  | cons piece rest ih =>
    obtain ⟨t, compiled, hcompiled, hplain⟩ := hpieces piece List.mem_cons_self
    have hrest := ih fun other hother => hpieces other (List.mem_cons_of_mem piece hother)
    have hfirst := hcompiled.flagged
    rw [← hplain] at hfirst
    refine (hfirst.append hrest).congr fun k => isFlagPlace_cons fun other hother hends => ?_
    obtain ⟨t', compiled', hcompiled', hplain'⟩ := hpieces other (List.mem_cons_of_mem piece hother)
    rw [hplain', ← hcompiled'.branchPlace_add hends]
    exact Nat.le_add_left _ _

end Group

/-! ### Flags in tables -/

namespace AliasTable

variable {t : SymbolTable} {address : Nat} {groups : List Group} {table : AliasTable}

/-- The groups of a table, each with the bytes of its calls, which are compiled with the symbols
that are in force there. -/
theorem exists_plain_of_assemble (h : (assemble address t groups).result = .ok table) :
    ∃ pieces : List (Group × Bytes), pieces.map Prod.fst = groups ∧
      (∀ i (piece : Group × Bytes), pieces[i]? = some piece → ∃ compiled,
        Group.CompilesTo (t.withLabels (table.labels.take (i + 1))) piece.1 compiled ∧
          piece.2 = compiled.flatMap Prod.snd) ∧
      table.data = pieces.flatMap fun piece => piece.1.flagged piece.2 := by
  induction groups generalizing address t table with
  | nil =>
    cases h
    exact ⟨[], rfl, by simp, rfl⟩
  | cons g rest ih =>
    obtain ⟨code, later, -, hcode, hlater, rfl⟩ := assemble_cons_eq_ok_iff.mp h
    obtain ⟨compiled, hcompiled, rfl⟩ := Group.compile_eq_ok_iff.mp hcode
    obtain ⟨pieces, rfl, hpieces, hdata⟩ := ih hlater
    refine ⟨(g, compiled.flatMap Prod.snd) :: pieces, rfl, ?_, ?_⟩
    · intro i piece hpiece
      cases i with
      | zero =>
        obtain rfl := Option.some.inj hpiece
        exact ⟨compiled, hcompiled, rfl⟩
      | succ i =>
        -- a later group also sees the label of this one, in front of the labels of the others
        obtain ⟨compiled', hcompiled', hplain⟩ := hpieces i piece hpiece
        refine ⟨compiled', ?_, hplain⟩
        rw [List.take_succ_cons, SymbolTable.withLabels_cons]
        exact hcompiled'
    · rw [List.flatMap_cons, hcompiled.codeOf_eq_flagged, hdata]

/-- **Where a table differs from the bytes of its calls.** Each call compiles with the labels up to
the one of its own group defined. The bytes of all calls in the order of the source, and the header
behind them, are as long as the table and differ from it exactly seven bytes before the end of each
group that ends in a display list; there they have a zero byte, and the table has a one. In
particular each group stands in the table with its own flag, if it gets one, and with no other byte
changed. -/
theorem branch_flags {pool : Pool} {header : Bytes}
    (h : (build pool t header).result = .ok table) :
    ∃ pieces : List (Group × Bytes), pieces.map Prod.fst = pool.groups ∧
      (∀ i (piece : Group × Bytes), pieces[i]? = some piece → ∃ codes : List Bytes,
        (piece.1.calls.mapM fun placed => Call.compileText
          (t.withLabels (table.labels.take (i + 1))) placed.text).result = .ok codes ∧
        piece.2 = codes.flatten) ∧
      table.data.length = (pieces.flatMap Prod.snd ++ header).length ∧
      (∀ k, table.data[k]? ≠ (pieces.flatMap Prod.snd ++ header)[k]? ↔
        Group.IsFlagPlace pieces k) ∧
      (∀ k, Group.IsFlagPlace pieces k →
        (pieces.flatMap Prod.snd ++ header)[k]? = some 0x00 ∧ table.data[k]? = some 0x01) ∧
      ∀ front g plain back, pieces = front ++ (g, plain) :: back →
        Bytes.slice? table.data (front.flatMap Prod.snd).length plain.length =
          some (g.flagged plain) := by
  obtain ⟨assembled, hassembled, -, rfl⟩ := build_eq_ok_iff.mp h
  obtain ⟨pieces, hgroups, hpieces, hdata⟩ := exists_plain_of_assemble hassembled
  have hplain : ∀ piece ∈ pieces, ∃ t compiled, Group.CompilesTo t piece.1 compiled ∧
      piece.2 = compiled.flatMap Prod.snd := by
    intro piece hpiece
    obtain ⟨i, hi⟩ := List.mem_iff_getElem?.mp hpiece
    exact ⟨_, hpieces i piece hi⟩
  have hflagged : Bytes.Flagged (Group.IsFlagPlace pieces) (pieces.flatMap Prod.snd ++ header)
      (assembled.data ++ header) := by
    rw [hdata]
    refine ((Group.flagged_flatMap hplain).append (Bytes.flagged_nowhere header)).congr fun k => ?_
    simp
  refine ⟨pieces, hgroups, ?_, hflagged.length, hflagged.ne_iff,
    fun k hk => ⟨hflagged.zero k hk, hflagged.flag k hk⟩, ?_⟩
  · intro i piece hpiece
    obtain ⟨compiled, hcompiled, hplain⟩ := hpieces i piece hpiece
    refine ⟨compiled.map Prod.snd, ?_, by rw [hplain, List.flatMap_def]⟩
    exact Build.result_mapM_eq_ok_iff.mpr hcompiled.forall₂_compileText
  · rintro front g plain back rfl
    have hfront : (front.flatMap Prod.snd).length =
        (front.flatMap fun piece => piece.1.flagged piece.2).length := by
      simp only [List.length_flatMap, Group.length_flagged]
    have hsplit : assembled.data ++ header =
        (front.flatMap fun piece => piece.1.flagged piece.2) ++ (g.flagged plain ++
          ((back.flatMap fun piece => piece.1.flagged piece.2) ++ header)) := by
      rw [hdata, List.flatMap_append, List.flatMap_cons, List.append_assoc, List.append_assoc]
    rw [hsplit, hfront, ← Group.length_flagged g plain]
    exact Bytes.slice?_append_append _ _ _

/-- A pool with a group that ends in a display list, an empty group behind it, data that look like a
command to run a display list, and a group that ends in another command. -/
def mixedPool : Pool where
  region := ⟨0x54, 0x40⟩
  groups :=
    [⟨"A", ⟨"mixed", 1⟩, [⟨"CallList(A)".toList, ⟨"mixed", 1⟩⟩]⟩,
     ⟨"E", ⟨"mixed", 2⟩, []⟩,
     ⟨"H", ⟨"mixed", 3⟩, [⟨"HexString(DE00000006000054)".toList, ⟨"mixed", 3⟩⟩]⟩,
     ⟨"B", ⟨"mixed", 4⟩,
      [⟨"CallList(A)".toList, ⟨"mixed", 4⟩⟩, ⟨"PopMatrix(1)".toList, ⟨"mixed", 5⟩⟩]⟩]

/-- The table of the mixed pool, closed by two bytes. -/
def mixedTable : AliasTable where
  data := [0xDE, 1, 0, 0, 6, 0, 0, 0x54, 0xDE, 0, 0, 0, 6, 0, 0, 0x54, 0xDE, 0, 0, 0, 6, 0, 0, 0x54,
    0xD8, 0x38, 0, 2, 0, 0, 0, 0x40, 0x15, 0x12]
  labels := [("A", 0x54), ("E", 0x5C), ("H", 0x5C), ("B", 0x64)]
  symbols :=
    ⟨⟨[("DL_B", .external), ("DL_DF_COMMAND", .resolved 0x71), ("A", .resolved 0x54),
        ("E", .resolved 0x5C), ("H", .resolved 0x5C), ("B", .resolved 0x64)], by decide⟩,
      "DL_DF_COMMAND"⟩

/-- No byte is changed but the second one of the first group. -/
theorem branch_flags_mixed :
    (build mixedPool smallSymbols [0x15, 0x12]).result = .ok mixedTable ∧
      ∃ pieces : List (Group × Bytes), pieces.map Prod.fst = mixedPool.groups ∧
        ∀ k, k ≠ 1 → mixedTable.data[k]? = (pieces.flatMap Prod.snd ++ [0x15, 0x12])[k]? := by
  have hbuild : (build mixedPool smallSymbols [0x15, 0x12]).result = .ok mixedTable := by
    decide +kernel
  have hone : ∀ k < mixedTable.data.length, mixedTable.data[k]? = some 1 → k = 1 := by
    decide +kernel
  obtain ⟨pieces, hgroups, -, -, hdiffers, hflag, -⟩ := branch_flags hbuild
  refine ⟨hbuild, pieces, hgroups, fun k hk => ?_⟩
  by_contra hne
  have hbyte := (hflag k ((hdiffers k).mp hne)).2
  exact hk (hone k (List.getElem?_eq_some_iff.mp hbyte).1 hbyte)

end AliasTable

end ModelPatch

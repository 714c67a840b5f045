import Mathlib
import ModelPatch.Proofs.CallSize
import ModelPatch.Proofs.TableLayout

/-!
# The table in two passes

The table is assembled in a single pass: while groups are compiled, the symbol table grows, and each
label gets the address that has been reached. A textbook assembler takes two passes. The first adds
up sizes and gives every label its address, and the second compiles all calls with all labels
defined. Both come to the same table, because a size does not depend on symbols and a call that
compiles keeps its bytes when labels are added behind it.

Only the branch flags stand between the two: the second pass knows nothing about the last call of a
group. `Bytes.Marked` says that two byte strings differ in them and in nothing else.

## Main definitions

* `Pool.labels`: the labels with their addresses, as a first pass finds them;
* `Group.IsBranchByte`: the places of the branch flags, as a first pass finds them;
* `Bytes.Marked`: a byte string with branch flags set at some places.

## Main results

* `AliasTable.labels_of_assemble`: labels stand where the sizes put them;
* `AliasTable.marked_of_assemble`: up to branch flags, the bytes are what all calls compile to with
  all labels defined;
* `AliasTable.two_pass`: a table that is built is the table of a two-pass assembler.
-/

namespace ModelPatch

/-! ### Branch flags -/

/-- A byte string with branch flags set at some places. -/
structure Bytes.Marked (places : Nat → Prop) (plain marked : Bytes) : Prop where
  /-- No byte is added or left out. -/
  length : marked.length = plain.length
  /-- A branch flag stands at each of the places. -/
  flag : ∀ k, places k → marked[k]? = some Command.branchFlag
  /-- Nothing else is changed. -/
  rest : ∀ k, ¬ places k → marked[k]? = plain[k]?

namespace Bytes

variable {places : Nat → Prop} {plain marked : Bytes}

theorem marked_nowhere (plain : Bytes) : Marked (fun _ => False) plain plain :=
  ⟨rfl, fun _ h => h.elim, fun _ _ => rfl⟩

theorem Marked.lt_length {k : Nat} (h : Marked places plain marked) (hk : places k) :
    k < plain.length := by
  obtain ⟨hlt, -⟩ := List.getElem?_eq_some_iff.mp (h.flag k hk)
  rwa [h.length] at hlt

theorem Marked.congr {places' : Nat → Prop} (h : Marked places plain marked)
    (hiff : ∀ k, places' k ↔ places k) : Marked places' plain marked := by
  refine ⟨h.length, ?_, ?_⟩
  · intro k hk
    exact h.flag k ((hiff k).mp hk)
  · intro k hk
    exact h.rest k (mt (hiff k).mpr hk)

/-- Marked strings are put together with the places of the second one shifted. -/
theorem Marked.append {places' : Nat → Prop} {plain' marked' : Bytes}
    (h : Marked places plain marked) (h' : Marked places' plain' marked') :
    Marked (fun k => places k ∨ ∃ j, k = plain.length + j ∧ places' j) (plain ++ plain')
      (marked ++ marked') := by
  refine ⟨by rw [List.length_append, List.length_append, h.length, h'.length], ?_, ?_⟩
  · rintro k (hk | ⟨j, rfl, hj⟩)
    · have hlt := h.lt_length hk
      rw [List.getElem?_append_left (by rwa [h.length]), h.flag k hk]
    · rw [← h.length, List.getElem?_append_right (by omega), Nat.add_sub_cancel_left, h'.flag j hj]
  · intro k hk
    rw [not_or] at hk
    rcases Nat.lt_or_ge k plain.length with hlt | hge
    · rw [List.getElem?_append_left (by rwa [h.length]), List.getElem?_append_left hlt,
        h.rest k hk.1]
    · have hj : ¬ places' (k - plain.length) := by
        intro hj
        exact hk.2 ⟨k - plain.length, by omega, hj⟩
      rw [List.getElem?_append_right (by rwa [h.length]), List.getElem?_append_right hge, h.length,
        h'.rest _ hj]

end Bytes

namespace Group

/-- A byte of a table that holds a branch flag: the second byte of the last call of a group that
ends in a display list. -/
def IsBranchByte (groups : List Group) (k : Nat) : Prop :=
  ∃ front g back, groups = front ++ g :: back ∧ g.endsInCallList = true ∧
    k = (front.map size).sum + g.branchPlace

theorem not_isBranchByte_nil (k : Nat) : ¬ IsBranchByte [] k := by
  rintro ⟨front, g, back, hsplit, -⟩
  simp at hsplit

/-- A branch byte stands in the first group or, that far behind its end, in the others. -/
theorem isBranchByte_cons {g : Group} {rest : List Group} {k : Nat} :
    IsBranchByte (g :: rest) k ↔
      (g.endsInCallList = true ∧ k = g.branchPlace) ∨
        ∃ j, k = g.size + j ∧ IsBranchByte rest j := by
  constructor
  · rintro ⟨front, last, back, hsplit, hends, rfl⟩
    rcases List.cons_eq_append_iff.mp hsplit with ⟨rfl, hlast⟩ | ⟨front, rfl, rfl⟩
    · obtain ⟨rfl, rfl⟩ := List.cons.inj hlast
      exact .inl ⟨hends, by simp⟩
    · refine .inr ⟨_, ?_, front, last, back, rfl, hends, rfl⟩
      rw [List.map_cons, List.sum_cons, Nat.add_assoc]
  · rintro (⟨hends, rfl⟩ | ⟨j, rfl, front, last, back, rfl, hends, rfl⟩)
    · exact ⟨[], g, rest, rfl, hends, by simp⟩
    · refine ⟨g :: front, last, back, rfl, hends, ?_⟩
      rw [List.map_cons, List.sum_cons, Nat.add_assoc]

variable {t : SymbolTable} {g : Group} {compiled : List (Call × Bytes)}

/-- Counted from the end of the group, the branch flag has the distance that the assembler uses. -/
theorem CompilesTo.branchPlace_add (h : CompilesTo t g compiled) (hends : g.endsInCallList = true) :
    g.branchPlace + Command.branchDistance = (compiled.flatMap Prod.snd).length := by
  obtain ⟨j, hlength, hlast⟩ := h.exists_last (h.endsInList_eq.trans hends)
  have hstart : (g.calls.dropLast.map PlacedCall.size).sum = callStart compiled j := by
    rw [callStart, List.length_flatMap, List.map_dropLast, h.map_size, ← List.map_dropLast,
      List.dropLast_eq_take, hlength, Nat.add_sub_cancel]
  rw [← hlast, branchPlace, hstart, Command.branchDistance]

/-- The bytes of a group are those of its calls, with the branch flag set if there is one. -/
theorem CompilesTo.marked_codeOf (h : CompilesTo t g compiled) :
    Bytes.Marked (fun k => g.endsInCallList = true ∧ k = g.branchPlace)
      (compiled.flatMap Prod.snd) (codeOf compiled) := by
  rw [codeOf, h.endsInList_eq]
  by_cases hends : g.endsInCallList = true
  · have hend := h.branchPlace_add hends
    rw [Command.branchDistance] at hend
    have hplace : (compiled.flatMap Prod.snd).length - Command.branchDistance = g.branchPlace := by
      rw [Command.branchDistance]
      omega
    have hroom : g.branchPlace < (compiled.flatMap Prod.snd).length := by omega
    simp only [hends, hplace, if_true, true_and]
    refine ⟨List.length_set, ?_, ?_⟩
    · rintro k rfl
      exact List.getElem?_set_self hroom
    · intro k hk
      exact List.getElem?_set_ne (Ne.symm hk)
  · rw [if_neg hends]
    exact (Bytes.marked_nowhere _).congr fun k => iff_false_intro fun hk => hends hk.1

/-- A group that compiles has the size that its text says. -/
theorem CompilesTo.length_codeOf (h : CompilesTo t g compiled) :
    (codeOf compiled).length = g.size :=
  h.marked_codeOf.length.trans h.length_flatMap

end Group

/-! ### The first pass -/

/-- The labels of groups, the first of which starts at `address`, as a first pass finds them: each
stands behind all calls of the earlier groups. -/
def Group.labelsFrom (address : Nat) (groups : List Group) : List (String × Nat) :=
  groups.mapIdx fun i g => (g.label, address + ((groups.take i).map size).sum)

theorem Group.labelsFrom_cons (address : Nat) (g : Group) (rest : List Group) :
    labelsFrom address (g :: rest) = (g.label, address) :: labelsFrom (address + g.size) rest := by
  simp [labelsFrom, List.mapIdx_cons, Nat.add_assoc]

theorem Group.map_fst_labelsFrom (address : Nat) (groups : List Group) :
    (labelsFrom address groups).map Prod.fst = groups.map label := by
  induction groups generalizing address with
  | nil => rfl
  | cons g rest ih => rw [labelsFrom_cons, List.map_cons, List.map_cons, ih]

/-- The labels of a pool with their addresses. -/
def Pool.labels (pool : Pool) : List (String × Nat) :=
  Group.labelsFrom pool.region.offset pool.groups

namespace AliasTable

variable {t : SymbolTable} {address : Nat} {groups : List Group} {table : AliasTable}

/-- **Labels stand where the sizes put them**, whatever the symbols. -/
theorem labels_of_assemble (h : (assemble address t groups).result = .ok table) :
    table.labels = Group.labelsFrom address groups := by
  induction groups generalizing address t table with
  | nil =>
    cases h
    rfl
  | cons g rest ih =>
    obtain ⟨code, later, -, hcode, hlater, rfl⟩ := assemble_cons_eq_ok_iff.mp h
    obtain ⟨compiled, hcompiled, rfl⟩ := Group.compile_eq_ok_iff.mp hcode
    rw [Group.labelsFrom_cons, ← hcompiled.length_codeOf, ← ih hlater]

/-- The groups of a table take up as many bytes as their sizes add up to. -/
theorem length_of_assemble (h : (assemble address t groups).result = .ok table) :
    table.data.length = (groups.map Group.size).sum := by
  induction groups generalizing address t table with
  | nil =>
    cases h
    rfl
  | cons g rest ih =>
    obtain ⟨code, later, -, hcode, hlater, rfl⟩ := assemble_cons_eq_ok_iff.mp h
    obtain ⟨compiled, hcompiled, rfl⟩ := Group.compile_eq_ok_iff.mp hcode
    rw [List.length_append, hcompiled.length_codeOf, ih hlater, List.map_cons, List.sum_cons]

/-! ### The second pass -/

/-- **The second pass repeats the first.** With all labels defined every call compiles, and the
table has these bytes, but for the branch flags. -/
theorem marked_of_assemble (h : (assemble address t groups).result = .ok table) :
    ∃ codes : List Bytes,
      List.Forall₂
        (fun placed code => (Call.compileText table.symbols placed.text).result = .ok code)
        (groups.flatMap Group.calls) codes ∧
      Bytes.Marked (Group.IsBranchByte groups) codes.flatten table.data := by
  induction groups generalizing address t table with
  | nil =>
    cases h
    exact ⟨[], .nil, (Bytes.marked_nowhere []).congr fun k =>
      iff_false_intro (Group.not_isBranchByte_nil k)⟩
  | cons g rest ih =>
    obtain ⟨code, later, -, hcode, hlater, rfl⟩ := assemble_cons_eq_ok_iff.mp h
    obtain ⟨compiled, hcompiled, rfl⟩ := Group.compile_eq_ok_iff.mp hcode
    obtain ⟨codes, hcodes, hmarked⟩ := ih hlater
    obtain ⟨hfresh, hsymbols⟩ := symbols_of_assemble hlater
    have hfinal : Group.CompilesTo later.symbols g compiled :=
      hcompiled.of_growsTo (hsymbols ▸ hfresh.growsTo)
    refine ⟨compiled.map Prod.snd ++ codes, ?_, ?_⟩
    · rw [List.flatMap_cons]
      exact List.rel_append hfinal.forall₂_compileText hcodes
    · rw [List.flatten_append, ← List.flatMap_def]
      refine (hcompiled.marked_codeOf.append hmarked).congr fun k => ?_
      rw [Group.isBranchByte_cons, hcompiled.length_flatMap]

/-! ### Both passes -/

/-- **A table in two passes.** The labels of a table that is built stand where the sizes put them,
and they come, with these addresses, behind the names that were there before. With the symbols of
the finished table every call compiles, to as many bytes as its text says; these bytes in the order
of the source, and the header behind them, are the table, but for the second byte of the last call
of each group that ends in a display list. -/
theorem two_pass {pool : Pool} {header : Bytes} (h : (build pool t header).result = .ok table) :
    table.labels = pool.labels ∧
      (∀ label ∈ pool.labels, table.labels.lookup label.1 = some label.2) ∧
      table.symbols.placeholder = t.placeholder ∧
      table.symbols.symbols.entries =
        t.symbols.entries ++ pool.labels.map (fun label => (label.1, .resolved label.2)) ∧
      ∃ codes : List Bytes,
        ((pool.groups.flatMap Group.calls).mapM fun placed =>
          Call.compileText table.symbols placed.text).result = .ok codes ∧
        codes.map List.length = (pool.groups.flatMap Group.calls).map PlacedCall.size ∧
        Bytes.Marked (Group.IsBranchByte pool.groups) (codes.flatten ++ header) table.data := by
  obtain ⟨front, hfront, -, rfl⟩ := build_eq_ok_iff.mp h
  have hlabels : front.labels = pool.labels := labels_of_assemble hfront
  obtain ⟨hfresh, hsymbols⟩ := symbols_of_assemble hfront
  obtain ⟨codes, hcodes, hmarked⟩ := marked_of_assemble hfront
  refine ⟨hlabels, ?_, ?_, ?_, codes, ?_, ?_, ?_⟩
  · intro label hlabel
    exact hfresh.lookup_of_mem (hlabels ▸ hlabel)
  · rw [hsymbols, SymbolTable.placeholder_withLabels]
  · rw [hsymbols, SymbolTable.entries_withLabels hfresh, hlabels]
  · exact Build.result_mapM_eq_ok_iff.mpr hcodes
  · symm
    refine map_eq_map_of_forall₂ (fun placed code hcode => ?_) hcodes
    exact (PlacedCall.length_of_compileText hcode).symm
  · refine (hmarked.append (Bytes.marked_nowhere header)).congr fun k => ?_
    simp

/-! ### A small pool -/

/-- Symbols of which one is a bank object. -/
def smallSymbols : SymbolTable :=
  ⟨⟨[("DL_B", .external), ("DL_DF_COMMAND", .resolved 0x71)], by decide⟩, "DL_DF_COMMAND"⟩

/-- A pool of two groups, both of which end in a display list. The second one starts at an odd
address. -/
def smallPool : Pool where
  region := ⟨0x54, 0x40⟩
  groups :=
    [⟨"A", ⟨"small", 1⟩,
      [⟨"HexString(AB CD EF)".toList, ⟨"small", 1⟩⟩, ⟨"CallList(A)".toList, ⟨"small", 1⟩⟩]⟩,
     ⟨"B", ⟨"small", 2⟩,
      [⟨"PopMatrix(2)".toList, ⟨"small", 3⟩⟩, ⟨"CallMatrix(A)".toList, ⟨"small", 3⟩⟩,
        ⟨"CallList(DL_B)".toList, ⟨"small", 4⟩⟩]⟩]

/-- The table of the small pool, closed by two bytes. -/
def smallTable : AliasTable where
  data := [0xAB, 0xCD, 0xEF, 0xDE, 1, 0, 0, 6, 0, 0, 0x54, 0xD8, 0x38, 0, 2, 0, 0, 0, 0x80, 0xDA,
    0x38, 0, 0, 6, 0, 0, 0x54, 0xDE, 1, 0, 0, 6, 0, 0, 0x71, 0x15, 0x12]
  labels := [("A", 0x54), ("B", 0x5F)]
  symbols :=
    ⟨⟨[("DL_B", .external), ("DL_DF_COMMAND", .resolved 0x71), ("A", .resolved 0x54),
        ("B", .resolved 0x5F)], by decide⟩, "DL_DF_COMMAND"⟩

/-- The second group starts where the sizes of the first two calls, three and eight, put it. -/
theorem two_pass_small :
    (build smallPool smallSymbols [0x15, 0x12]).result = .ok smallTable ∧
      smallPool.labels = [("A", 0x54), ("B", 0x54 + (3 + 8))] ∧
      ∃ codes : List Bytes,
        ((smallPool.groups.flatMap Group.calls).mapM fun placed =>
          Call.compileText smallTable.symbols placed.text).result = .ok codes ∧
        codes.map List.length = [3, 8, 8, 8, 8] ∧
        Bytes.Marked (Group.IsBranchByte smallPool.groups) (codes.flatten ++ [0x15, 0x12])
          smallTable.data := by
  have hbuild : (build smallPool smallSymbols [0x15, 0x12]).result = .ok smallTable := by
    decide +kernel
  obtain ⟨hlabels, -, -, -, codes, hcodes, hlengths, hmarked⟩ := two_pass hbuild
  have hsizes : (smallPool.groups.flatMap Group.calls).map PlacedCall.size = [3, 8, 8, 8, 8] := by
    decide +kernel
  exact ⟨hbuild, hlabels.symm, codes, hcodes, hlengths.trans hsizes, hmarked⟩

end AliasTable

end ModelPatch

import Mathlib
import ModelPatch.Proofs.MentionedNames

/-!
# Tables can be relocated

The same groups are assembled here at two addresses, one `k` above the other. Every label moves by
`k`, and so does every operand that is the address of a label; nothing else in the table changes.
Addresses of the segment are bounded above, so it is the upper run whose success has to be assumed:
whatever fits there fits below.

A table is cut into the pieces that its calls compile to, in the order of the source, so that what
happens to a call can be said of its own piece. `PlacedCall.MovesBy` compares the two pieces of a
call. The symbol tables of the two runs are compared by `SymbolTable.MovedBy`, and for a call that
is not about a label nothing new has to be shown: the two tables agree on its name, so it is
compiled alike.

## Main definitions

* `SymbolTable.MovedBy`: two symbol tables differ by `k` in some labels;
* `PlacedCall.MovesBy`: two pieces of the same call differ by `k` if the call is about a label.

## Main results

* `SymbolTable.MovedBy.withLabel`: a label that is defined `k` higher keeps the tables related;
* `PlacedCall.exists_movesBy`, `Group.exists_pieces`: what compiles above compiles below, to pieces
  that are related;
* `AliasTable.relocate`: a pool that is built is also built `k` lower, to the same bytes but for the
  operands of labels.
-/

namespace ModelPatch

open Build

/-- A list that is related item by item to one with a last item has a last item too. -/
theorem exists_concat_of_forall₂ {α β : Type} {r : α → β → Prop} {xs : List α} {ys : List β} {y : β}
    (h : List.Forall₂ r xs (ys ++ [y])) :
    ∃ front x, xs = front ++ [x] ∧ List.Forall₂ r front ys ∧ r x y := by
  rw [← List.forall₂_reverse_iff, List.reverse_append, List.reverse_singleton,
    List.singleton_append, List.forall₂_cons_right_iff] at h
  obtain ⟨x, front, hlast, hfront, hxs⟩ := h
  refine ⟨front.reverse, x, ?_, ?_, hlast⟩
  · rw [← List.reverse_reverse xs, hxs, List.reverse_cons]
  · rwa [← List.forall₂_reverse_iff, List.reverse_reverse]

/-! ### Symbols -/

namespace SymbolTable

variable {k : Nat} {labels : List String} {t t' : SymbolTable} {name : String}

/-- Two symbol tables differ by `k` in some labels. -/
structure MovedBy (k : Nat) (labels : List String) (t t' : SymbolTable) : Prop where
  /-- A label is undefined in both tables, or stands for an offset that is `k` larger in the
  second. -/
  label : ∀ name ∈ labels, (t.symbols.get? name = none ∧ t'.symbols.get? name = none) ∨
    ∃ n : Nat, t.symbols.get? name = some (.resolved n) ∧
      t'.symbols.get? name = some (.resolved (n + k : Nat))
  /-- All other names mean the same. -/
  rest : t.AgreeOn (· ∉ labels) t'

/-- A table in which the labels are still undefined has not been moved. -/
theorem movedBy_self {offset : Int} (k : Nat) (hnew : ∀ name ∈ labels, t.symbols.get? name = none)
    (hplaceholder : t.symbols.get? t.placeholder = some (.resolved offset)) :
    t.MovedBy k labels t :=
  ⟨fun name hname => .inl ⟨hnew name hname, hnew name hname⟩,
    ⟨fun _ _ => rfl, offset, hplaceholder, hplaceholder⟩⟩

theorem MovedBy.get?_eq_none (h : t.MovedBy k labels t') (hname : name ∈ labels)
    (hnew : t'.symbols.get? name = none) : t.symbols.get? name = none := by
  rcases h.label name hname with ⟨hnone, -⟩ | ⟨n, -, hsome⟩
  · exact hnone
  · rw [hnew] at hsome
    cases hsome

/-- A label that is defined `k` higher in the second table keeps the tables related. -/
theorem MovedBy.withLabel (h : t.MovedBy k labels t') (address : Nat) (hname : name ∈ labels)
    (hnew : t'.symbols.get? name = none) :
    (t.withLabels [(name, address)]).MovedBy k labels (t'.withLabels [(name, address + k)]) := by
  refine ⟨?_, h.rest.withLabel (h.get?_eq_none hname hnew) hnew fun hout => absurd hname hout⟩
  intro other hother
  rw [get?_withLabels_singleton, get?_withLabels_singleton]
  by_cases heq : other = name
  · rw [if_pos heq, if_pos heq]
    exact .inr ⟨address, rfl, rfl⟩
  · rw [if_neg heq, if_neg heq]
    exact h.label other hother

end SymbolTable

/-! ### Calls -/

/-- A call about a label that compiles with the moved symbols compiles without the move, and the two
codes differ in the operand, by `k`. -/
theorem Call.Names.compile_moved {k : Nat} {labels : List String} {t t' : SymbolTable} {c : Call}
    {name : String} {code' : Bytes} (hnames : c.Names name) (hname : name ∈ labels)
    (h : t.MovedBy k labels t') (hcode' : (c.compile t').result = .ok code') :
    ∃ (opening : Bytes) (n : Nat), opening.length = 4 ∧ n + k < Bytes.wordLimit ∧
      (c.compile t).result = .ok (opening ++ Bytes.ofNat 4 n) ∧
      code' = opening ++ Bytes.ofNat 4 (n + k) := by
  obtain ⟨n, hlow, hhigh⟩ : ∃ n : Nat, t.symbols.get? name = some (.resolved n) ∧
      t'.symbols.get? name = some (.resolved (n + k : Nat)) := by
    refine (h.label name hname).resolve_left fun hnone => ?_
    have hdefined := hnames.isSome_of_compile hcode'
    rw [hnone.2] at hdefined
    cases hdefined
  rcases hnames.function with hf | hf
  · obtain ⟨m, hresolve, hm, rfl⟩ := hnames.callList hf hcode'
    have hmk : m = n + k := by
      have hoffset : ((n + k : Nat) : Int) = m := by
        simpa [SymbolTable.resolve_eq_ok_iff, hhigh] using hresolve
      omega
    have hlimit := Segment.address_lt_wordLimit hm
    refine ⟨_, Segment.id * Segment.size + n, rfl, by omega, ?_, by rw [hmk, Nat.add_assoc]⟩
    refine (compile_callList_eq_ok_iff hf).mpr ⟨_, n, hnames.arguments, ?_, by omega, rfl⟩
    rw [String.ofList_toList]
    exact SymbolTable.resolve_eq_ok_iff.mpr (.inl hlow)
  · obtain ⟨m, hsymbol, hm, rfl⟩ := hnames.callMatrix hf hcode'
    have hmk : m = n + k := by
      have hoffset : ((n + k : Nat) : Int) = m := by simpa [hhigh] using hsymbol
      omega
    have hlimit := Segment.address_lt_wordLimit hm
    refine ⟨_, Segment.id * Segment.size + n, rfl, by omega, ?_, by rw [hmk, Nat.add_assoc]⟩
    refine (compile_callMatrix_eq_ok_iff hf).mpr ⟨_, n, hnames.arguments, ?_, by omega, rfl⟩
    rwa [String.ofList_toList]

namespace PlacedCall

variable {k : Nat} {labels : List String} {placed : PlacedCall} {code code' : Bytes}

/-- Two pieces of the same call. If the call is about a label, they differ in the operand, by `k`,
and in nothing else; otherwise they are equal. -/
structure MovesBy (k : Nat) (labels : List String) (placed : PlacedCall) (code code' : Bytes) :
    Prop where
  /-- Both pieces have the size that the text of the call says. -/
  size : code.length = placed.size ∧ code'.length = placed.size
  /-- A call about a label has four bytes in front of its operand, which both pieces share. -/
  label : ∀ name ∈ placed.name?, name ∈ labels →
    ∃ (opening : Bytes) (n : Nat), opening.length = 4 ∧ n + k < Bytes.wordLimit ∧
      code = opening ++ Bytes.ofNat 4 n ∧ code' = opening ++ Bytes.ofNat 4 (n + k)
  /-- Any other call has one piece. -/
  rest : (∀ name ∈ placed.name?, name ∉ labels) → code = code'

/-- What a call compiles to with the moved symbols, it compiles to without the move, but for the
address of a label. -/
theorem exists_movesBy {t t' : SymbolTable} {call : Call} (h : t.MovedBy k labels t')
    (hcall : (Call.parse placed.text).result = .ok call)
    (hcode' : (call.compile t').result = .ok code') :
    ∃ code, (call.compile t).result = .ok code ∧ placed.MovesBy k labels code code' := by
  have hname? : placed.name? = call.name? := by
    rw [name?, call?, Call.parse_eq_ok_iff.mp hcall, Option.bind_some]
  have hsize : ∀ {s : SymbolTable} {bytes : Bytes}, (call.compile s).result = .ok bytes →
      bytes.length = placed.size := fun hbytes =>
    length_of_compileText (Call.compileText_eq_ok_iff.mpr ⟨call, hcall, hbytes⟩)
  by_cases hlabel : ∃ name ∈ placed.name?, name ∈ labels
  · obtain ⟨name, hname, hmem⟩ := hlabel
    have hnames : call.Names name := Call.name?_eq_some_iff.mp (hname? ▸ hname)
    obtain ⟨opening, n, hopening, hlimit, hcode, rfl⟩ := hnames.compile_moved hmem h hcode'
    refine ⟨_, hcode, ⟨hsize hcode, hsize hcode'⟩, ?_, fun hout => absurd hmem (hout name hname)⟩
    exact fun _ _ _ => ⟨opening, n, hopening, hlimit, rfl, rfl⟩
  · have hout : ∀ name ∈ placed.name?, name ∉ labels := fun name hname hmem =>
      hlabel ⟨name, hname, hmem⟩
    rcases Call.alike_compile h.rest (hname? ▸ hout) with
      ⟨fault, -, hfault⟩ | ⟨code, _, hcode, hcode'', rfl⟩
    · rw [hcode'] at hfault
      cases hfault
    · obtain rfl := Except.ok.inj (hcode''.symm.trans hcode')
      exact ⟨code, hcode, ⟨hsize hcode, hsize hcode⟩,
        fun name hname hmem => absurd hmem (hout name hname), fun _ => rfl⟩

/-- The branch flag is set in front of the operand, and in both pieces. -/
theorem MovesBy.setFlag (h : placed.MovesBy k labels code code') :
    placed.MovesBy k labels (code.set 1 Command.branchFlag) (code'.set 1 Command.branchFlag) := by
  refine ⟨by simpa only [List.length_set] using h.size, ?_, fun hout => by rw [h.rest hout]⟩
  intro name hname hmem
  obtain ⟨opening, n, hopening, hlimit, rfl, rfl⟩ := h.label name hname hmem
  refine ⟨opening.set 1 Command.branchFlag, n, by rw [List.length_set, hopening], hlimit, ?_, ?_⟩
  · rw [List.set_append_left _ _ (by omega)]
  · rw [List.set_append_left _ _ (by omega)]

end PlacedCall

/-! ### Groups -/

namespace Group

variable {k : Nat} {labels : List String} {t t' : SymbolTable} {g : Group}

/-- A group that compiles takes up as many bytes as its text says. -/
theorem length_of_compile {code : Bytes} (h : (g.compile t).result = .ok code) :
    code.length = g.size := by
  obtain ⟨compiled, hcompiled, rfl⟩ := compile_eq_ok_iff.mp h
  exact hcompiled.length_codeOf

/-- The calls of a group, compiled in both runs: each comes with its two pieces. -/
theorem CompilesTo.exists_runs {compiled' : List (Call × Bytes)} (h : t.MovedBy k labels t')
    (hcompiled' : CompilesTo t' g compiled') :
    ∃ runs : List (Call × Bytes × Bytes),
      compiled' = runs.map (fun run => (run.1, run.2.2)) ∧
      CompilesTo t g (runs.map fun run => (run.1, run.2.1)) ∧
      List.Forall₂ (fun placed run => placed.MovesBy k labels run.2.1 run.2.2) g.calls runs := by
  unfold CompilesTo at *
  generalize g.calls = calls at *
  induction hcompiled' with
  | nil => exact ⟨[], rfl, .nil, .nil⟩
  | @cons placed pair calls compiled' hpair _ ih =>
    obtain ⟨runs, rfl, hruns, hmoves⟩ := ih
    obtain ⟨code, hcode, hmove⟩ := PlacedCall.exists_movesBy h hpair.1 hpair.2
    exact ⟨(pair.1, code, pair.2) :: runs, rfl, .cons ⟨hpair.1, hcode⟩ hruns, .cons hmove hmoves⟩

/-- The branch flag goes into the piece of the last call. -/
theorem codeOf_concat {front : List (Call × Bytes)} {call : Call} {bytes : Bytes}
    (hends : endsInList ((front ++ [(call, bytes)]).map Prod.fst) = true)
    (hlength : bytes.length = 8) :
    codeOf (front ++ [(call, bytes)]) =
      front.flatMap Prod.snd ++ bytes.set 1 Command.branchFlag := by
  have hplain : (front ++ [(call, bytes)]).flatMap Prod.snd = front.flatMap Prod.snd ++ bytes := by
    rw [List.flatMap_append, List.flatMap_singleton]
  have hplace : (front.flatMap Prod.snd ++ bytes).length - Command.branchDistance =
      (front.flatMap Prod.snd).length + 1 := by
    rw [List.length_append, hlength, Command.branchDistance]
    omega
  simp only [codeOf, hends, if_true, hplain, hplace]
  rw [List.set_append_right _ _ (Nat.le_add_right _ _), Nat.add_sub_cancel_left]

/-- A group that compiles with the moved symbols compiles without the move, call by call. The branch
flag, if there is one, is in the same place. -/
theorem exists_pieces {code' : Bytes} (h : t.MovedBy k labels t')
    (hcode' : (g.compile t').result = .ok code') :
    ∃ (code : Bytes) (pieces : List (Bytes × Bytes)), (g.compile t).result = .ok code ∧
      List.Forall₂ (fun placed piece => placed.MovesBy k labels piece.1 piece.2) g.calls pieces ∧
      code = pieces.flatMap Prod.fst ∧ code' = pieces.flatMap Prod.snd := by
  obtain ⟨_, hcompiled', rfl⟩ := compile_eq_ok_iff.mp hcode'
  obtain ⟨runs, rfl, hcompiled, hmoves⟩ := hcompiled'.exists_runs h
  by_cases hends : endsInList (runs.map Prod.fst) = true
  · obtain ⟨front, ⟨call, low, high⟩, rfl, hf⟩ := exists_concat_of_endsInList hends
    obtain ⟨calls, placed, hcalls, hfront, hlast⟩ := exists_concat_of_forall₂ hmoves
    have hsize : call.size = 8 := by simp [Call.size, hf]
    have hlow : low.length = 8 :=
      (Call.length_of_compile (hcompiled.compile (by simp))).trans hsize
    have hhigh : high.length = 8 :=
      (Call.length_of_compile (hcompiled'.compile (by simp))).trans hsize
    refine ⟨_, front.map Prod.snd ++
      [(low.set 1 Command.branchFlag, high.set 1 Command.branchFlag)],
      compile_eq_ok_iff.mpr ⟨_, hcompiled, rfl⟩, ?_, ?_, ?_⟩
    · rw [hcalls]
      exact List.rel_append (List.forall₂_map_right_iff.mpr hfront) (.cons hlast.setFlag .nil)
    · rw [List.map_append, List.map_singleton,
        codeOf_concat (by simpa [Function.comp_def] using hends) hlow]
      simp [List.flatMap_map]
    · rw [List.map_append, List.map_singleton,
        codeOf_concat (by simpa [Function.comp_def] using hends) hhigh]
      simp [List.flatMap_map]
  · refine ⟨_, runs.map Prod.snd, compile_eq_ok_iff.mpr ⟨_, hcompiled, rfl⟩,
      List.forall₂_map_right_iff.mpr hmoves, ?_, ?_⟩
    · simp [codeOf, Function.comp_def, hends, List.flatMap_map]
    · simp [codeOf, Function.comp_def, hends, List.flatMap_map]

end Group

/-! ### Tables -/

namespace AliasTable

variable {k : Nat} {t t' : SymbolTable}

/-- Labels with their addresses, each `k` higher. -/
def moveLabels (k : Nat) (labels : List (String × Nat)) : List (String × Nat) :=
  labels.map fun label => (label.1, label.2 + k)

/-- One group after another. The two runs stay `k` apart, because a group takes up as many bytes in
the one as in the other. -/
theorem exists_pieces_of_assemble {labels : List String} {address : Nat} {groups : List Group}
    {high : AliasTable} (h : t.MovedBy k labels t') (hlabels : ∀ g ∈ groups, g.label ∈ labels)
    (hhigh : (assemble (address + k) t' groups).result = .ok high) :
    ∃ (low : AliasTable) (pieces : List (Bytes × Bytes)),
      (assemble address t groups).result = .ok low ∧ high.labels = moveLabels k low.labels ∧
      List.Forall₂ (fun placed piece => placed.MovesBy k labels piece.1 piece.2)
        (groups.flatMap Group.calls) pieces ∧
      low.data = pieces.flatMap Prod.fst ∧ high.data = pieces.flatMap Prod.snd := by
  induction groups generalizing address t t' high with
  | nil =>
    cases hhigh
    exact ⟨empty t, [], rfl, rfl, .nil, rfl, rfl⟩
  | cons g rest ih =>
    obtain ⟨code', later', hnew', hcode', hlater', rfl⟩ := assemble_cons_eq_ok_iff.mp hhigh
    have hlabel : g.label ∈ labels := hlabels g List.mem_cons_self
    have hextended := h.withLabel address hlabel hnew'
    obtain ⟨code, pieces, hcode, hmoves, rfl, rfl⟩ := Group.exists_pieces hextended hcode'
    rw [Group.length_of_compile hcode', ← Group.length_of_compile hcode,
      Nat.add_right_comm] at hlater'
    obtain ⟨later, pieces', hlater, hlaterLabels, hmoves', hlow, hhigh⟩ :=
      ih hextended (fun g' hg' => hlabels g' (List.mem_cons_of_mem g hg')) hlater'
    refine ⟨_, pieces ++ pieces', assemble_cons_eq_ok_iff.mpr
      ⟨_, later, h.get?_eq_none hlabel hnew', hcode, hlater, rfl⟩, ?_, ?_, ?_, ?_⟩
    · rw [hlaterLabels]
      rfl
    · rw [List.flatMap_cons]
      exact List.rel_append hmoves hmoves'
    · rw [hlow, List.flatMap_append]
    · rw [hhigh, List.flatMap_append]

/-- **Tables can be relocated.** If a pool is built at `offset + k`, it is built at `offset` with
the same groups, budget, symbols and header. The labels are `k` lower there. Both tables are the
pieces of the calls in the order of the source, closed by the header; two pieces of the same call
differ only if the call is about a label of the pool, and then only in the operand, by `k`. -/
theorem relocate {offset size : Nat} {groups : List Group} {header : Bytes} {place : Int}
    {high : AliasTable} (hplaceholder : t.symbols.get? t.placeholder = some (.resolved place))
    (hhigh : (build ⟨⟨offset + k, size⟩, groups⟩ t header).result = .ok high) :
    ∃ (low : AliasTable) (pieces : List (Bytes × Bytes)),
      (build ⟨⟨offset, size⟩, groups⟩ t header).result = .ok low ∧
      low.data.length = high.data.length ∧
      high.labels = moveLabels k low.labels ∧
      List.Forall₂
        (fun placed piece => placed.MovesBy k (groups.map Group.label) piece.1 piece.2)
        (groups.flatMap Group.calls) pieces ∧
      low.data = pieces.flatMap Prod.fst ++ header ∧
      high.data = pieces.flatMap Prod.snd ++ header := by
  obtain ⟨front', hfront', hroom, rfl⟩ := build_eq_ok_iff.mp hhigh
  have hnew : ∀ name ∈ groups.map Group.label, t.symbols.get? name = none := by
    intro name hname
    rw [← map_fst_labels_of_assemble hfront'] at hname
    obtain ⟨label, hlabel, rfl⟩ := List.mem_map.mp hname
    exact (symbols_of_assemble hfront').1.new label hlabel
  obtain ⟨front, pieces, hfront, hlabels, hmoves, hlow, hhigh⟩ :=
    exists_pieces_of_assemble (SymbolTable.movedBy_self k hnew hplaceholder)
      (fun g hg => List.mem_map_of_mem hg) hfront'
  have hlength : front.data.length = front'.data.length := by
    rw [length_of_assemble hfront, length_of_assemble hfront']
  have hfits : front.data.length + header.length ≤ size := by rwa [hlength]
  refine ⟨_, pieces, build_eq_ok_iff.mpr ⟨front, hfront, hfits, rfl⟩, ?_, hlabels, hmoves,
    by rw [hlow], by rw [hhigh]⟩
  rw [List.length_append, List.length_append, hlength]

/-- The table of the small pool, moved by `0xFFC0`, so that the lower bytes of addresses carry. -/
def movedTable : AliasTable where
  data := [0xAB, 0xCD, 0xEF, 0xDE, 1, 0, 0, 6, 1, 0, 0x14, 0xD8, 0x38, 0, 2, 0, 0, 0, 0x80, 0xDA,
    0x38, 0, 0, 6, 1, 0, 0x14, 0xDE, 1, 0, 0, 6, 0, 0, 0x71, 0x15, 0x12]
  labels := [("A", 0x10014), ("B", 0x1001F)]
  symbols :=
    ⟨⟨[("DL_B", .external), ("DL_DF_COMMAND", .resolved 0x71), ("A", .resolved 0x10014),
        ("B", .resolved 0x1001F)], by decide⟩, "DL_DF_COMMAND"⟩

/-- Moved back, the two calls about a label name it where it is then; the call of the bank object
still goes to the placeholder. -/
theorem relocate_small :
    (build ⟨⟨0x54 + 0xFFC0, 0x40⟩, smallPool.groups⟩ smallSymbols [0x15, 0x12]).result =
        .ok movedTable ∧
      (build smallPool smallSymbols [0x15, 0x12]).result = .ok smallTable ∧
      movedTable.labels = moveLabels 0xFFC0 smallTable.labels ∧
      ∃ pieces : List (Bytes × Bytes),
        List.Forall₂ (fun placed piece => placed.MovesBy 0xFFC0 ["A", "B"] piece.1 piece.2)
          (smallPool.groups.flatMap Group.calls) pieces ∧
        smallTable.data = pieces.flatMap Prod.fst ++ [0x15, 0x12] ∧
        movedTable.data = pieces.flatMap Prod.snd ++ [0x15, 0x12] := by
  have hplaceholder : smallSymbols.symbols.get? smallSymbols.placeholder =
      some (.resolved 0x71) := by
    decide +kernel
  have hhigh : (build ⟨⟨0x54 + 0xFFC0, 0x40⟩, smallPool.groups⟩ smallSymbols
      [0x15, 0x12]).result = .ok movedTable := by
    decide +kernel
  have hlow : (build smallPool smallSymbols [0x15, 0x12]).result = .ok smallTable := by
    decide +kernel
  obtain ⟨low, pieces, hlow', -, hlabels, hmoves, hdata, hdata'⟩ := relocate hplaceholder hhigh
  obtain rfl := Except.ok.inj (hlow'.symm.trans hlow)
  exact ⟨hhigh, hlow, hlabels, pieces, hmoves, hdata, hdata'⟩

end AliasTable

end ModelPatch

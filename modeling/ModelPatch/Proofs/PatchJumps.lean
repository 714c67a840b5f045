import Mathlib
import ModelPatch.Proofs.PatchFrame

/-!
# Where the jumps of a patch lead

The renderer jumps into the alias table by addresses that were worked out before the table existed
as a whole: a group is labelled when the bytes before it are known, its calls are compiled against
the labels defined so far, the last call is turned into a branch in place, and in the end the whole
table is moved to the offset of the pool. Here it is shown that the addresses survive all of this.

A call about a name of the manifest has one of three ends. If the name is a label, the call carries
the address at which the group with that label stands in the patched asset. If it is a bank object,
the call carries the address of the placeholder. All else is settled by the dictionary alone.

## The placeholder can be lost

A table is only required to end in the asset *with* the placeholder. A pool that lies far enough at
the back may thus put the skeleton header over the placeholder, and calls of bank objects then lead
into the header. `placeholder_intact_iff` says exactly when.

## Main definitions

* `Patch.Stages.scope`: the symbols that the calls of a group can name;
* `Patch.Stages.JumpsLand`: groups stand at their labels, and calls carry these labels.

## Main results

* `Patch.jump_targets`: the jumps of every build land;
* `Patch.placeholder_intact_iff`: when the placeholder is still there for bank objects.
-/

namespace ModelPatch.Patch

variable {source : Manifest.Source} {asset : Bytes} {name file placeholder : String} {p : Patch}
  {i j m : Nat} {g : Group} {call : Call} {bytes : Bytes} {label : String}

/-! ### Labels -/

/-- The symbols that the calls of the group with index `i` can name: those of the manifest, and the
labels up to that of the group. -/
def Stages.scope (s : Stages source asset name file placeholder p) (i : Nat) : SymbolTable :=
  s.symbols.withLabels (s.table.labels.take (i + 1))

/-- The labels are new to the symbols of the manifest, and the patch has both. -/
theorem Stages.fresh (s : Stages source asset name file placeholder p) :
    s.symbols.Fresh s.table.labels ∧ p.symbols = s.symbols.withLabels s.table.labels := by
  obtain ⟨front, hfront, -, htable⟩ := AliasTable.build_eq_ok_iff.mp s.table_eq
  have hsymbols := AliasTable.symbols_of_assemble hfront
  rw [s.patch_symbols, htable]
  exact hsymbols

theorem Stages.map_fst_labels (s : Stages source asset name file placeholder p) :
    s.table.labels.map Prod.fst = s.manifest.pool.groups.map Group.label := by
  obtain ⟨front, hfront, -, htable⟩ := AliasTable.build_eq_ok_iff.mp s.table_eq
  have hlabels := AliasTable.map_fst_labels_of_assemble hfront
  rw [htable]
  exact hlabels

/-- A label that a group can name is that of the group itself or of an earlier one. -/
theorem Stages.exists_label_of_scope (s : Stages source asset name file placeholder p)
    (hlabel : label ∈ s.manifest.pool.groups.map Group.label)
    (hscope : ((s.scope i).symbols.get? label).isSome) :
    ∃ target k : Nat, (s.scope i).symbols.get? label = some (.resolved target) ∧
      s.table.labels.lookup label = some target ∧ k ≤ i ∧
      (s.manifest.pool.groups[k]?).map Group.label = some label := by
  have hfresh := s.fresh.1
  have hget := SymbolTable.get?_withLabels (hfresh.sublist (List.take_sublist (i + 1) _)) label
  rw [← Stages.scope] at hget
  cases hlookup : (s.table.labels.take (i + 1)).lookup label with
  | some target =>
    rw [hlookup] at hget
    obtain ⟨front, back, hsplit, -⟩ := List.lookup_eq_some_iff.mp hlookup
    have hmem : (label, target) ∈ s.table.labels.take (i + 1) := by rw [hsplit]; simp
    obtain ⟨k, hk, hat⟩ := List.mem_take_iff_getElem.mp hmem
    refine ⟨target, k, hget, hfresh.lookup_of_mem (List.mem_of_mem_take hmem), by omega, ?_⟩
    have hmap := congrArg (fun labels => labels[k]?) s.map_fst_labels
    simp only [List.getElem?_map] at hmap
    rw [← hmap, List.getElem?_eq_getElem (by omega), hat, Option.map_some]
  | none =>
    -- A label that is not among the first ones is not a symbol of the manifest either.
    rw [hlookup] at hget
    rw [← s.map_fst_labels] at hlabel
    obtain ⟨other, hother, rfl⟩ := List.mem_map.mp hlabel
    rw [hget, hfresh.new other hother] at hscope
    cases hscope

/-- What is external in the end was external all the time. -/
theorem Stages.get?_scope_of_external (s : Stages source asset name file placeholder p)
    (hexternal : p.symbols.symbols.get? label = some .external) (i : Nat) :
    (s.scope i).symbols.get? label = some .external := by
  obtain ⟨hfresh, hsymbols⟩ := s.fresh
  rw [hsymbols, SymbolTable.get?_withLabels hfresh] at hexternal
  rw [scope, SymbolTable.get?_withLabels (hfresh.sublist (List.take_sublist (i + 1) _))]
  cases hlookup : s.table.labels.lookup label with
  | some target =>
    rw [hlookup] at hexternal
    cases hexternal
  | none =>
    rw [hlookup] at hexternal
    have hnone : (s.table.labels.take (i + 1)).lookup label = none := by
      rw [List.lookup_eq_none_iff] at hlookup ⊢
      exact fun other hother => hlookup other (List.mem_of_mem_take hother)
    rw [hnone]
    exact hexternal

/-- The placeholder stands for the end of the trimmed asset, whatever labels are defined. -/
theorem Stages.get?_scope_placeholder (s : Stages source asset name file placeholder p) (i : Nat) :
    (s.scope i).symbols.get? (s.scope i).placeholder =
      some (.resolved (Trailer.trim asset).length) := by
  have hplaceholder := SymbolTable.get?_placeholder_of_ofSources s.symbols_eq
  have hfresh := s.fresh.1.sublist (List.take_sublist (i + 1) _)
  rw [scope, SymbolTable.placeholder_withLabels, SymbolTable.get?_withLabels hfresh]
  cases hlookup : (s.table.labels.take (i + 1)).lookup s.symbols.placeholder with
  | none => exact hplaceholder
  | some target =>
    obtain ⟨front, back, hsplit, -⟩ := List.lookup_eq_some_iff.mp hlookup
    have hnew := hfresh.new (s.symbols.placeholder, target) (by rw [hsplit]; simp)
    rw [hplaceholder] at hnew
    cases hnew

/-! ### Code -/

/-- Every group stands at its label in the patched asset. -/
theorem Stages.exists_code (s : Stages source asset name file placeholder p)
    (hg : s.manifest.pool.groups[i]? = some g) :
    ∃ address code, s.table.labels.lookup g.label = some address ∧
      (g.compile (s.scope i)).result = .ok code ∧
      Bytes.slice? p.output address code.length = some code := by
  obtain ⟨front, hfront, -, htable⟩ := AliasTable.build_eq_ok_iff.mp s.table_eq
  obtain ⟨start, code, hlabel, hcode, hslice⟩ := AliasTable.group_of_assemble hfront hg
  have hlabels : s.table.labels = front.labels := by rw [htable]
  rw [← hlabels] at hlabel hcode
  refine ⟨_, code, s.fresh.1.lookup_of_mem (List.mem_of_getElem? hlabel), hcode, ?_⟩
  rw [← s.patch_region]
  refine Bytes.slice?_trans s.slice?_output ?_
  -- The groups are the front of the table: the header stands behind them.
  have hfront : Bytes.slice? p.table 0 front.data.length = some front.data := by
    rw [s.patch_table, htable]
    exact Bytes.slice?_append_left front.data p.skeleton.header
  rw [← Nat.zero_add start]
  exact Bytes.slice?_trans hfront hslice

/-- The call with index `j` of the group with index `i` compiles to `bytes`, and these start at
`place`, but for a branch flag. -/
def Stages.CallAt (s : Stages source asset name file placeholder p) (i j : Nat) (call : Call)
    (bytes : Bytes) (place : Nat) : Prop :=
  ∃ (g : Group) (address : Nat) (compiled : List (Call × Bytes)),
    s.manifest.pool.groups[i]? = some g ∧ s.table.labels.lookup g.label = some address ∧
      g.CompilesTo (s.scope i) compiled ∧ compiled[j]? = some (call, bytes) ∧
      place = address + Group.callStart compiled j

/-- Every call of the pool has its place. -/
theorem Stages.exists_callAt (s : Stages source asset name file placeholder p)
    (hg : s.manifest.pool.groups[i]? = some g) {placed : PlacedCall}
    (hplaced : g.calls[j]? = some placed) :
    ∃ call bytes place, (Call.parse placed.text).result = .ok call ∧
      s.CallAt i j call bytes place := by
  obtain ⟨address, code, haddress, hcode, -⟩ := s.exists_code hg
  obtain ⟨compiled, hcompiled, -⟩ := Group.compile_eq_ok_iff.mp hcode
  obtain ⟨⟨call, bytes⟩, hj, hparse, -⟩ := hcompiled.exists_getElem? hplaced
  exact ⟨call, bytes, _, hparse, g, address, compiled, hg, haddress, hcompiled, hj, rfl⟩

theorem Stages.CallAt.compile {s : Stages source asset name file placeholder p} {place : Nat}
    (h : s.CallAt i j call bytes place) : (call.compile (s.scope i)).result = .ok bytes := by
  obtain ⟨g, address, compiled, -, -, hcompiled, hj, -⟩ := h
  exact hcompiled.compile (List.mem_of_getElem? hj)

/-- The operand of a call stands in the patched asset where the call does. -/
theorem Stages.CallAt.word?_output {s : Stages source asset name file placeholder p}
    {place n : Nat} {opening : Bytes} (h : s.CallAt i j call (opening ++ Bytes.ofNat 4 n) place)
    (hopening : opening.length = 4) (hn : n < Bytes.wordLimit) :
    Bytes.word? p.output (place + 4) = some n := by
  obtain ⟨g, address, compiled, hg, haddress, hcompiled, hj, rfl⟩ := h
  obtain ⟨found, code, hfound, hcode, hslice⟩ := s.exists_code hg
  obtain rfl : found = address := Option.some.inj (hfound.symm.trans haddress)
  have hsame : code = Group.codeOf compiled := by
    have hcompile := Group.compile_eq_ok_iff.mpr ⟨compiled, hcompiled, rfl⟩
    exact Except.ok.inj (hcode.symm.trans hcompile)
  rw [hsame] at hslice
  rw [Nat.add_assoc]
  exact Bytes.word?_of_slice? hslice (hcompiled.word?_codeOf hj hopening hn)

/-! ### Jumps -/

/-- What the renderer relies on when it jumps into the table of a patch. -/
structure Stages.JumpsLand (s : Stages source asset name file placeholder p) : Prop where
  /-- Every group stands at its label, branch flag included. -/
  groups : ∀ (i : Nat) (g : Group), s.manifest.pool.groups[i]? = some g →
    ∃ address code, s.table.labels.lookup g.label = some address ∧
      (g.compile (s.scope i)).result = .ok code ∧
      Bytes.slice? p.output address code.length = some code
  /-- A call about a label carries the address of the label in the last four of its eight bytes, and
  the label is that of the same group or of an earlier one. -/
  calls : ∀ (i j : Nat) (g : Group) (placed : PlacedCall),
    s.manifest.pool.groups[i]? = some g → g.calls[j]? = some placed →
    ∃ call bytes place, (Call.parse placed.text).result = .ok call ∧
      s.CallAt i j call bytes place ∧
      ∀ label ∈ s.manifest.pool.groups.map Group.label, call.Names label →
        ∃ target, s.table.labels.lookup label = some target ∧ bytes.length = 8 ∧
          Bytes.word? p.output (place + 4) = some (0x06000000 + target) ∧
          ∃ k ≤ i, (s.manifest.pool.groups[k]?).map Group.label = some label
  /-- The table ends in the header of the skeleton. -/
  header : ∃ q, q + 12 = p.region.offset + p.table.length ∧
    Bytes.slice? p.output q 12 = some p.skeleton.header

/-- A call about a label carries the address of the label. -/
theorem Stages.CallAt.word?_label {s : Stages source asset name file placeholder p} {place : Nat}
    (h : s.CallAt i j call bytes place) (hlabel : label ∈ s.manifest.pool.groups.map Group.label)
    (hnames : call.Names label) :
    ∃ target, s.table.labels.lookup label = some target ∧ bytes.length = 8 ∧
      Bytes.word? p.output (place + 4) = some (0x06000000 + target) ∧
      ∃ k ≤ i, (s.manifest.pool.groups[k]?).map Group.label = some label := by
  have hscope := hnames.isSome_of_compile h.compile
  obtain ⟨target, k, hget, hlookup, hk, hgroup⟩ := s.exists_label_of_scope hlabel hscope
  obtain ⟨n, opening, htarget, hn, hopening, rfl⟩ := hnames.compile_resolved hget h.compile
  obtain rfl : target = n := Int.ofNat.inj htarget
  refine ⟨target, hlookup, by simp [hopening], ?_, k, hk, hgroup⟩
  exact h.word?_output hopening (Segment.address_lt_wordLimit hn)

/-- **Jumps land.** In every patch that is built each group stands at its label, each call about a
label carries the address of that label, and the table ends in the header of the skeleton. -/
theorem jump_targets (h : (build source asset name file placeholder).result = .ok p) :
    ∃ s : Stages source asset name file placeholder p, s.JumpsLand := by
  obtain ⟨s⟩ := build_eq_ok_iff.mp h
  refine ⟨s, ?_, ?_, ?_⟩
  · intro i g hg
    exact s.exists_code hg
  · intro i j g placed hg hplaced
    obtain ⟨call, bytes, place, hparse, hat⟩ := s.exists_callAt hg hplaced
    refine ⟨call, bytes, place, hparse, hat, ?_⟩
    intro label hlabel hnames
    exact hat.word?_label hlabel hnames
  · obtain ⟨q, hq, -, hheader⟩ := s.exists_header_start
    exact ⟨q, hq, hheader⟩

/-- The small patch lands its jumps. The first of them is a call that a group makes of itself. -/
theorem jump_targets_tiny :
    (∃ s : Stages tinySource tinyAsset "tiny" Manifest.defaultFile SymbolTable.defaultPlaceholder
        tinyPatch, s.JumpsLand) ∧
      Call.Names ⟨"CallList", ["A".toList]⟩ "A" ∧
      Bytes.word? tinyPatch.output 0x59 = some 0x06000054 := by
  refine ⟨jump_targets tiny_builds, ⟨.inl rfl, rfl⟩, ?_⟩
  decide +kernel

/-! ### Bank objects -/

/-- A call about an external name carries the address of the placeholder. -/
theorem Stages.CallAt.word?_external {s : Stages source asset name file placeholder p}
    {place : Nat} (h : s.CallAt i j call bytes place) (hnames : call.Names label)
    (hexternal : p.symbols.symbols.get? label = some .external) :
    Bytes.word? p.output (place + 4) = some (0x06000000 + (Trailer.trim asset).length) := by
  have hscope := s.get?_scope_of_external hexternal i
  obtain ⟨n, hm, hn, rfl⟩ :=
    hnames.compile_external hscope (s.get?_scope_placeholder i) h.compile
  obtain rfl : (Trailer.trim asset).length = n := Int.ofNat.inj hm
  exact h.word?_output rfl (Segment.address_lt_wordLimit hn)

/-- No count of a skeleton header is the first byte of the placeholder. -/
theorem getElem?_countPattern_ne (k : Nat) :
    Skeleton.countPattern[k]? ≠ placeholderCommand[0]? := by
  intro h
  have hmem : (0xDF : UInt8) ∈ Skeleton.countPattern := List.mem_of_getElem? h
  revert hmem
  decide

/-- The placeholder is still there exactly if the table ends before it. A table that ends inside it
would have to end in bytes of the placeholder, but it ends in the counts of a skeleton header. -/
theorem Stages.slice?_placeholder_iff (s : Stages source asset name file placeholder p)
    (hm : Trailer.find? asset = some m) :
    Bytes.slice? p.output m 8 = some placeholderCommand ↔
      p.region.offset + p.table.length ≤ m := by
  rw [Bytes.slice?_eq_some_iff_getElem?]
  constructor
  · rintro ⟨-, hbytes⟩
    by_contra hend
    obtain ⟨q, hq, -, -, hcounts⟩ := s.exists_counts_start
    have hle := s.table_end_le hm
    rw [Skeleton.headerSize] at hq
    have hfirst := hbytes 0 (by decide)
    have hcount := (Bytes.slice?_eq_some_iff_getElem?.mp hcounts).2 (m - (q + 4))
      (by rw [Skeleton.countPattern]; simp; omega)
    rw [show q + 4 + (m - (q + 4)) = m + 0 by omega, hfirst] at hcount
    exact getElem?_countPattern_ne _ hcount.symm
  · intro hend
    refine ⟨rfl, ?_⟩
    intro k hk
    rw [s.getElem?_output hm, if_neg (by omega), if_neg (by omega), Nat.add_sub_cancel_left]

/-- **When bank objects have something to call.** Every call of a bank object carries the address
behind the trimmed asset, and the placeholder stands there exactly if the table ends before it. -/
theorem placeholder_intact_iff (h : (build source asset name file placeholder).result = .ok p) :
    (Bytes.slice? p.output (Trailer.trim asset).length 8 = some placeholderCommand ↔
        p.region.offset + p.table.length ≤ (Trailer.trim asset).length) ∧
      ∃ s : Stages source asset name file placeholder p,
        ∀ (i j : Nat) (g : Group) (placed : PlacedCall),
          s.manifest.pool.groups[i]? = some g → g.calls[j]? = some placed →
          ∃ call bytes place, (Call.parse placed.text).result = .ok call ∧
            s.CallAt i j call bytes place ∧
            ∀ label, p.symbols.symbols.get? label = some .external → call.Names label →
              Bytes.word? p.output (place + 4) =
                some (0x06000000 + (Trailer.trim asset).length) := by
  obtain ⟨s⟩ := build_eq_ok_iff.mp h
  refine ⟨?_, s, ?_⟩
  · obtain ⟨m, hm⟩ := s.exists_find?
    rw [Trailer.length_trim hm]
    exact s.slice?_placeholder_iff hm
  · intro i j g placed hg hplaced
    obtain ⟨call, bytes, place, hparse, hat⟩ := s.exists_callAt hg hplaced
    refine ⟨call, bytes, place, hparse, hat, ?_⟩
    intro label hexternal hnames
    exact hat.word?_external hnames hexternal

/-- The table of the small patch ends behind the placeholder. -/
theorem placeholder_intact_tiny :
    Bytes.slice? tinyPatch.output 0x71 8 = some placeholderCommand ↔ 0x79 ≤ 0x71 := by
  have hlength : (Trailer.trim tinyAsset).length = 0x71 := Trailer.length_trim tiny_find?
  rw [← hlength]
  exact (placeholder_intact_iff tiny_builds).1

/-- The small patch has lost its placeholder: its bank object is called at the address `0x71`, where
the end of the skeleton header stands. -/
theorem placeholder_lost :
    (build tinySource tinyAsset "tiny").result = .ok tinyPatch ∧
      tinyPatch.symbols.symbols.get? "DL_B" = some .external ∧
      Bytes.word? tinyPatch.output 0x69 = some 0x06000071 ∧
      (Trailer.trim tinyAsset).length = 0x71 ∧
      Bytes.slice? tinyPatch.output 0x71 8 = some Skeleton.countPattern ∧
      Bytes.slice? tinyPatch.output 0x71 8 ≠ some placeholderCommand := by
  refine ⟨tiny_builds, ?_, ?_, ?_, ?_, ?_⟩ <;> decide +kernel

end ModelPatch.Patch

import Mathlib
import ModelPatch.Proofs.GroupCode

/-!
# How an alias table is laid out

Addresses are handed out while the table is still growing: a group starts where the bytes before it
end, and its calls may name only what is defined so far. Tables of two lists of groups compose, the
second being assembled behind the first and with its symbols. From that one fact follows where a
group stands in a table and which symbols its calls were compiled with, wherever it is in the list.

## Main definitions

* `AliasTable.append`: one table behind another.

## Main results

* `AliasTable.assemble_append`: tables compose;
* `AliasTable.symbols_of_assemble`: the symbols of a table are the old ones with its labels, which
  are fresh;
* `AliasTable.group_of_assemble`: every group compiles, with the labels up to its own defined, to
  what stands at its label;
* `AliasTable.result_build`, `AliasTable.build_eq_ok_iff`: a pool is built if its groups are and the table fits.
-/

namespace ModelPatch.AliasTable

variable {t : SymbolTable} {address : Nat} {groups : List Group} {table : AliasTable}

/-! ### One group, many groups -/

theorem assemble_nil (address : Nat) (t : SymbolTable) :
    (assemble address t []).result = .ok (empty t) := rfl

/-- One step: the label is new, the group compiles with its own label defined, and the others are
assembled behind it. -/
theorem assemble_cons_eq_ok_iff {g : Group} :
    (assemble address t (g :: groups)).result = .ok table ↔
      ∃ code later, t.symbols.get? g.label = none ∧
        (g.compile (t.withLabels [(g.label, address)])).result = .ok code ∧
        (assemble (address + code.length) (t.withLabels [(g.label, address)]) groups).result =
          .ok later ∧
        table = ⟨code ++ later.data, (g.label, address) :: later.labels, later.symbols⟩ := by
  rw [assemble]
  simp only [Build.result_bind_eq_ok_iff, SymbolTable.define_eq_ok_iff, Build.result_note,
    Build.result_pure, Except.ok.injEq]
  constructor
  · rintro ⟨_, ⟨hnew, rfl⟩, -, -, code, hcode, later, hlater, rfl⟩
    exact ⟨code, later, hnew, hcode, hlater, rfl⟩
  · rintro ⟨code, later, hnew, hcode, hlater, rfl⟩
    exact ⟨_, ⟨hnew, rfl⟩, (), trivial, code, hcode, later, hlater, rfl⟩

/-- One table behind another: the bytes and the labels of both, and the symbols of the second. -/
def append (front back : AliasTable) : AliasTable :=
  ⟨front.data ++ back.data, front.labels ++ back.labels, back.symbols⟩

/-- **Tables compose.** The second list of groups is assembled behind the first, with the symbols
that the first leaves, and reports and refusals are the same as in one go. -/
theorem assemble_append (address : Nat) (t : SymbolTable) (first second : List Group) :
    assemble address t (first ++ second) = (do
      let front ← assemble address t first
      let back ← assemble (address + front.data.length) front.symbols second
      return front.append back) := by
  induction first generalizing address t with
  | nil => simp [assemble, empty, append]
  | cons g rest ih =>
    simp only [List.cons_append, assemble, ih, bind_assoc, pure_bind, append, List.append_assoc,
      List.length_append, Nat.add_assoc]

theorem assemble_append_eq_ok_iff {first second : List Group} :
    (assemble address t (first ++ second)).result = .ok table ↔
      ∃ front back, (assemble address t first).result = .ok front ∧
        (assemble (address + front.data.length) front.symbols second).result = .ok back ∧
        table = ⟨front.data ++ back.data, front.labels ++ back.labels, back.symbols⟩ := by
  simp only [assemble_append, Build.result_bind_eq_ok_iff, Build.result_pure, Except.ok.injEq,
    append, exists_and_left, @eq_comm _ table]

/-! ### Labels and symbols -/

theorem map_fst_labels_of_assemble (h : (assemble address t groups).result = .ok table) :
    table.labels.map Prod.fst = groups.map Group.label := by
  induction groups generalizing address t table with
  | nil =>
    cases h
    rfl
  | cons g rest ih =>
    obtain ⟨code, later, -, -, hlater, rfl⟩ := assemble_cons_eq_ok_iff.mp h
    simp [ih hlater]

/-- The symbols of a table are the old ones with its labels, and those are fresh. -/
theorem symbols_of_assemble (h : (assemble address t groups).result = .ok table) :
    t.Fresh table.labels ∧ table.symbols = t.withLabels table.labels := by
  induction groups generalizing address t table with
  | nil =>
    cases h
    exact ⟨t.fresh_nil, rfl⟩
  | cons g rest ih =>
    obtain ⟨code, later, hnew, -, hlater, rfl⟩ := assemble_cons_eq_ok_iff.mp h
    obtain ⟨hfresh, hsymbols⟩ := ih hlater
    refine ⟨SymbolTable.fresh_cons hnew hfresh, ?_⟩
    rw [SymbolTable.withLabels_cons]
    exact hsymbols

/-! ### Where a group stands -/

/-- **Every group stands at its label.** It compiles with the labels up to its own defined, and its
bytes stand at the address that its label got. -/
theorem group_of_assemble (h : (assemble address t groups).result = .ok table) {i : Nat}
    {g : Group} (hg : groups[i]? = some g) :
    ∃ start code, table.labels[i]? = some (g.label, address + start) ∧
      (g.compile (t.withLabels (table.labels.take (i + 1)))).result = .ok code ∧
      Bytes.slice? table.data start code.length = some code := by
  obtain ⟨hi, hgi⟩ := List.getElem?_eq_some_iff.mp hg
  rw [← List.take_append_drop i groups, List.drop_eq_getElem_cons hi, hgi] at h
  obtain ⟨front, back, hfront, hback, rfl⟩ := assemble_append_eq_ok_iff.mp h
  obtain ⟨code, later, -, hcode, -, rfl⟩ := assemble_cons_eq_ok_iff.mp hback
  have hlength : front.labels.length = i := by
    have hmap := congrArg List.length (map_fst_labels_of_assemble hfront)
    simp only [List.length_map, List.length_take] at hmap
    omega
  refine ⟨front.data.length, code, ?_, ?_, ?_⟩
  · rw [List.getElem?_append_right (by omega), hlength, Nat.sub_self, List.getElem?_cons_zero]
  · have htake : (front.labels ++ (g.label, address + front.data.length) :: later.labels).take
        (i + 1) = front.labels ++ [(g.label, address + front.data.length)] := by
      rw [← hlength, List.take_length_add_append, List.take_succ_cons, List.take_zero]
    rw [htake, SymbolTable.withLabels_append, ← (symbols_of_assemble hfront).2]
    exact hcode
  · rw [Bytes.slice?_eq_some_iff, List.drop_left, List.take_left]
    exact ⟨rfl, rfl⟩

/-! ### Pools -/

/-- What comes of a pool: its groups are assembled, and then only the size decides. -/
theorem result_build (pool : Pool) (t : SymbolTable) (header : Bytes) :
    (build pool t header).result =
      (assemble pool.region.offset t pool.groups).result >>= fun groups =>
        if pool.region.size < (groups.data ++ header).length then
          .error (.refused
            ⟨.overflow (.pool (groups.data ++ header).length pool.region.size), none⟩)
        else .ok { groups with data := groups.data ++ header } := by
  rw [build, Build.result_bind]
  refine congrArg _ (funext fun groups => ?_)
  dsimp only
  split
  · rfl
  · rfl

/-- A pool is built if its groups are and the table, header included, fits. -/
theorem build_eq_ok_iff {pool : Pool} {header : Bytes} :
    (build pool t header).result = .ok table ↔
      ∃ front, (assemble pool.region.offset t pool.groups).result = .ok front ∧
        front.data.length + header.length ≤ pool.region.size ∧
        table = { front with data := front.data ++ header } := by
  rw [result_build]
  cases (assemble pool.region.offset t pool.groups).result with
  | error fault => simp [bind, Except.bind]
  | ok front =>
    simp only [bind, Except.bind, Except.ok.injEq, exists_eq_left', List.length_append]
    split
    · next hlarge => simp [Nat.not_le.mpr hlarge]
    · next hfits => rw [Except.ok.injEq, eq_comm, and_iff_right (Nat.not_lt.mp hfits)]

end ModelPatch.AliasTable

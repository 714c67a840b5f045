import Mathlib
import ModelPatch.Proofs.TwoPass

/-!
# Tables put together

A pool can be cut at any group. The table of the groups in front of the cut and, behind it and with
its symbols, the table of the others make up the table of the whole pool. So the address reached and
the symbols are all that is carried from one group to the next: neither the bytes assembled so far
nor the labels have a part in what follows, and no group has a part in what stands before it.

Room is the only thing that does not compose, since a pool has a single budget. Where there is
enough of it, the whole is also refused exactly as its two parts are.

## Main results

* `AliasTable.build_without_header_eq_ok_iff`: without a header, a pool is built to what its groups
  are assembled to;
* `AliasTable.result_build_of_room`: with enough room, only the groups can be refused;
* `AliasTable.build_append`: a pool is built as its groups are, up to a cut and behind it.
-/

namespace ModelPatch.AliasTable

variable {t : SymbolTable} {pool : Pool} {header : Bytes} {table : AliasTable}

theorem build_without_header_eq_ok_iff :
    (build pool t []).result = .ok table ↔
      (assemble pool.region.offset t pool.groups).result = .ok table ∧
        table.data.length ≤ pool.region.size := by
  rw [build_eq_ok_iff]
  simp only [List.append_nil, List.length_nil, Nat.add_zero]
  constructor
  · rintro ⟨front, hfront, hroom, rfl⟩
    exact ⟨hfront, hroom⟩
  · rintro ⟨htable, hroom⟩
    exact ⟨table, htable, hroom, rfl⟩

/-- In a pool that is large enough, the table is what the groups are assembled to and the header. -/
theorem result_build_of_room
    (hroom : (pool.groups.map Group.size).sum + header.length ≤ pool.region.size) :
    (build pool t header).result = (do
      let groups ← assemble pool.region.offset t pool.groups
      return { groups with data := groups.data ++ header }).result := by
  rw [result_build, Build.result_bind]
  cases hgroups : (assemble pool.region.offset t pool.groups).result with
  | error fault => rfl
  | ok groups =>
    refine if_neg (Nat.not_lt.mpr ?_)
    rwa [List.length_append, length_of_assemble hgroups]

variable {offset size : Nat} {first second : List Group}

/-- A pool is built exactly if the groups in front of a cut are, the others are behind these, and
both tables together fit. -/
theorem build_append_eq_ok_iff :
    (build ⟨⟨offset, size⟩, first ++ second⟩ t header).result = .ok table ↔
      ∃ front back, (build ⟨⟨offset, size⟩, first⟩ t []).result = .ok front ∧
        (build ⟨⟨offset + front.data.length, size⟩, second⟩ front.symbols header).result =
          .ok back ∧
        front.data.length + back.data.length ≤ size ∧ table = front.append back := by
  constructor
  · intro htable
    obtain ⟨whole, hwhole, hroom, rfl⟩ := build_eq_ok_iff.mp htable
    obtain ⟨front, groups, hfront, hgroups, rfl⟩ := assemble_append_eq_ok_iff.mp hwhole
    have hfits : front.data.length + (groups.data ++ header).length ≤ size := by
      rw [List.length_append, Nat.add_assoc] at hroom
      rwa [List.length_append]
    have hback : groups.data.length + header.length ≤ size := by
      rw [List.length_append] at hfits
      omega
    refine ⟨front, { groups with data := groups.data ++ header },
      build_without_header_eq_ok_iff.mpr ⟨hfront, (Nat.le_add_right _ _).trans hfits⟩,
      build_eq_ok_iff.mpr ⟨groups, hgroups, hback, rfl⟩, hfits, ?_⟩
    rw [append, List.append_assoc]
  · rintro ⟨front, back, hfront, hback, hfits, rfl⟩
    obtain ⟨hfront, -⟩ := build_without_header_eq_ok_iff.mp hfront
    obtain ⟨groups, hgroups, -, rfl⟩ := build_eq_ok_iff.mp hback
    have hroom : (front.data ++ groups.data).length + header.length ≤ size := by
      rw [List.length_append] at hfits
      rwa [List.length_append, Nat.add_assoc]
    refine build_eq_ok_iff.mpr
      ⟨_, assemble_append_eq_ok_iff.mpr ⟨front, groups, hfront, hgroups, rfl⟩, hroom, ?_⟩
    rw [append, List.append_assoc]

/-- With room for all groups and the header, a pool is built or refused as its parts are. -/
theorem result_build_append_of_room
    (hroom : ((first ++ second).map Group.size).sum + header.length ≤ size) :
    (build ⟨⟨offset, size⟩, first ++ second⟩ t header).result = (do
      let front ← build ⟨⟨offset, size⟩, first⟩ t []
      let back ← build ⟨⟨offset + front.data.length, size⟩, second⟩ front.symbols header
      return front.append back).result := by
  have hsizes : (first.map Group.size).sum + (second.map Group.size).sum + header.length ≤
      size := by
    rwa [List.map_append, List.sum_append] at hroom
  have hfront : (build ⟨⟨offset, size⟩, first⟩ t []).result = (assemble offset t first).result := by
    rw [result_build_of_room (by simp only [List.length_nil]; omega)]
    simp
  have hback : ∀ (place : Nat) (t : SymbolTable),
      (build ⟨⟨place, size⟩, second⟩ t header).result = (do
        let groups ← assemble place t second
        return { groups with data := groups.data ++ header }).result := fun place t =>
    result_build_of_room (by simp only; omega)
  rw [result_build_of_room hroom, assemble_append]
  simp only [Build.result_bind, hfront, hback, append, bind_assoc]
  cases (assemble offset t first).result with
  | error fault => rfl
  | ok front =>
    cases (assemble (offset + front.data.length) front.symbols second).result with
    | error fault => simp [bind, Except.bind]
    | ok groups => simp [bind, Except.bind]

/-- **Tables compose.** A pool is built exactly if the groups in front of a cut are, without a
header, and the others behind their table and with its symbols, and if both tables together fit; the
table is then the one behind the other. If there is room for all groups, as large as their texts say
they are, and for the header, then the whole is also refused exactly as the parts are. The table of
the groups in front of the cut is always the beginning of the whole, with the same bytes and the
same addresses. -/
theorem build_append (offset size : Nat) (t : SymbolTable) (first second : List Group)
    (header : Bytes) :
    (∀ table, (build ⟨⟨offset, size⟩, first ++ second⟩ t header).result = .ok table ↔
      ∃ front back, (build ⟨⟨offset, size⟩, first⟩ t []).result = .ok front ∧
        (build ⟨⟨offset + front.data.length, size⟩, second⟩ front.symbols header).result =
          .ok back ∧
        front.data.length + back.data.length ≤ size ∧ table = front.append back) ∧
    (((first ++ second).map Group.size).sum + header.length ≤ size →
      (build ⟨⟨offset, size⟩, first ++ second⟩ t header).result = (do
        let front ← build ⟨⟨offset, size⟩, first⟩ t []
        let back ← build ⟨⟨offset + front.data.length, size⟩, second⟩ front.symbols header
        return front.append back).result) ∧
    ∀ front table, (build ⟨⟨offset, size⟩, first⟩ t []).result = .ok front →
      (build ⟨⟨offset, size⟩, first ++ second⟩ t header).result = .ok table →
      front.data <+: table.data ∧ front.labels <+: table.labels := by
  refine ⟨fun table => build_append_eq_ok_iff, result_build_append_of_room, ?_⟩
  intro front table hfront htable
  obtain ⟨front', back, hfront', -, -, rfl⟩ := build_append_eq_ok_iff.mp htable
  obtain rfl := Except.ok.inj (hfront'.symm.trans hfront)
  exact ⟨List.prefix_append _ _, List.prefix_append _ _⟩

/-- Cut behind its first group, the small pool is put together again. -/
theorem build_append_small :
    (build smallPool smallSymbols [0x15, 0x12]).result = .ok smallTable ∧
      ∃ front back,
        (build ⟨⟨0x54, 0x40⟩, smallPool.groups.take 1⟩ smallSymbols []).result = .ok front ∧
        (build ⟨⟨0x54 + front.data.length, 0x40⟩, smallPool.groups.drop 1⟩ front.symbols
          [0x15, 0x12]).result = .ok back ∧
        smallTable = front.append back ∧ front.data <+: smallTable.data ∧
        front.labels <+: smallTable.labels := by
  have hbuild : (build smallPool smallSymbols [0x15, 0x12]).result = .ok smallTable := by
    decide +kernel
  obtain ⟨hiff, -, hfirst⟩ := build_append 0x54 0x40 smallSymbols (smallPool.groups.take 1)
    (smallPool.groups.drop 1) [0x15, 0x12]
  obtain ⟨front, back, hfront, hback, -, htable⟩ := (hiff smallTable).mp hbuild
  exact ⟨hbuild, front, back, hfront, hback, htable, hfirst front smallTable hfront hbuild⟩

end ModelPatch.AliasTable

import Mathlib
import ModelPatch.Proofs.PatchStages
import ModelPatch.Proofs.TrailerRecords

/-!
# How far a trailer reaches

A trailer that can be read reaches from its marker to the end of its last record. These bytes, and
those in front of them, settle what is read: the rest of the asset can be cut off or replaced by
anything. And all of them are needed. If the asset is cut anywhere before the end of the last
record, the trailer is refused. No cut leaves a shorter trailer that could still be read, because
the number of records stands in front of them.

What is said to be missing depends on where the cut is: the trailer, if it is in the marker or
before; the number of records; or else a record, and then the names that are complete are counted.

## Main definitions

* `Trailer.StandsAt`: a trailer with given records starts at a place;
* `Trailer.stop`: where its last record ends;
* `Trailer.shortage`: what is missing if the asset is cut before that.

## Main results

* `Trailer.parse_eq_ok_iff`: a trailer is read exactly where one stands;
* `Trailer.StandsAt.take_append`: it stands in every part of the asset that holds it;
* `Trailer.StandsAt.result_parse_take`: every shorter part is refused;
* `Trailer.parse_reads_to_stop`: reading is settled by exactly the bytes up to the last record.
-/

namespace ModelPatch.Trailer

variable {asset : Bytes} {m n : Nat} {rs : List Record} {name : String} {trailer : Trailer}

/-- A trailer with the records `rs` starts at `m`. -/
structure StandsAt (asset : Bytes) (m : Nat) (rs : List Record) : Prop where
  /-- The first marker in the asset is at `m`. -/
  first : find? asset = some m
  /-- The number of records stands behind it. -/
  count : Bytes.half? asset (m + countDistance) = some rs.length
  /-- The records stand behind that. -/
  records : rs.flatMap Record.bytes <+: asset.drop (m + recordsDistance)

/-- Where the last record of the trailer at `m` ends; if there is none, where it would start. -/
def stop (m : Nat) (rs : List Record) : Nat :=
  m + recordsDistance + (rs.flatMap Record.bytes).length

/-- What is missing in the first `n` bytes of an asset whose trailer at `m` reaches further. -/
def shortage (name : String) (m : Nat) (rs : List Record) (n : Nat) : Missing :=
  if n < m + marker.length then .trailer name
  else if n < m + recordsDistance then .trailerCount name
  else
    .trailerRecords name (addEntries .empty (Record.completeIn (n - (m + recordsDistance)) rs)).size
      rs.length

theorem StandsAt.stop_le (h : StandsAt asset m rs) : stop m rs ≤ asset.length := by
  have hroom := room_of_half? h.count
  have hlength := h.records.length_le
  rw [List.length_drop] at hlength
  rw [stop]
  omega

/-! ### Parts of an asset -/

/-- The first marker is still the first one if the asset is cut behind it. -/
theorem find?_take_append (h : find? asset = some m) (hn : m + marker.length ≤ n)
    (tail : Bytes) : find? (asset.take n ++ tail) = some m := by
  obtain ⟨-, hat, hfirst⟩ := find?_eq_some_iff.mp h
  have hroom := Bytes.le_length_of_slice? (Bytes.isPrefix_drop_iff_slice?.mp hat)
    (by rw [length_marker]; decide)
  have hagree : ∀ k ≤ m, marker <+: (asset.take n ++ tail).drop k ↔ marker <+: asset.drop k := by
    intro k hk
    rw [Bytes.isPrefix_drop_iff_slice?, Bytes.isPrefix_drop_iff_slice?,
      (Bytes.agreeOn_take_append (by omega) (by omega) tail).slice?]
  refine find?_eq_some_iff.mpr ⟨?_, (hagree m le_rfl).mpr hat, fun k hk => ?_⟩
  · rw [List.length_append, List.length_take]
    omega
  · rw [hagree k hk.le]
    exact hfirst k hk

/-- There is no marker if the asset is cut before the end of the first one. -/
theorem find?_take (h : find? asset = some m) (hn : n < m + marker.length) :
    find? (asset.take n) = none := by
  cases hcut : find? (asset.take n) with
  | none => rfl
  | some k =>
    obtain ⟨-, hat, -⟩ := find?_eq_some_iff.mp hcut
    rw [List.drop_take] at hat
    have hlength := hat.length_le
    rw [List.length_take, length_marker] at hlength
    rw [length_marker] at hn
    have hbefore : k < m := by omega
    exact absurd (hat.trans (List.take_prefix _ _)) ((find?_eq_some_iff.mp h).2.2 k hbefore)

/-- The number of records is the same if the asset is cut behind it. -/
theorem half?_take_append {count : Nat}
    (h : Bytes.half? asset (m + countDistance) = some count) (hn : m + recordsDistance ≤ n)
    (tail : Bytes) : Bytes.half? (asset.take n ++ tail) (m + countDistance) = some count := by
  have hcut : m + countDistance + 2 ≤ n := hn
  have hroom : m + countDistance + 2 ≤ asset.length := room_of_half? h
  rw [Bytes.half?, (Bytes.agreeOn_take_append hcut hroom tail).slice?]
  exact h

/-- **A trailer stands in every part of the asset that holds it**, whatever is put behind that
part. -/
theorem StandsAt.take_append (h : StandsAt asset m rs) (hn : stop m rs ≤ n) (tail : Bytes) :
    StandsAt (asset.take n ++ tail) m rs := by
  have hroom := h.stop_le
  have hmarker := length_marker
  rw [stop, recordsDistance] at hn hroom
  refine ⟨find?_take_append h.first (by omega) tail, half?_take_append h.count ?_ tail, ?_⟩
  · rw [recordsDistance]
    omega
  · have hrecords := h.records
    rw [Bytes.isPrefix_drop_iff_slice?] at hrecords ⊢
    rw [(Bytes.agreeOn_take_append _ _ tail).slice?]
    · exact hrecords
    all_goals rw [recordsDistance]; omega

/-! ### Reading -/

theorem result_parse_of_find?_eq_none (h : find? asset = none) :
    (parse name asset).result = .error (.refused ⟨.missing (.trailer name), none⟩) := by
  rw [parse, h]
  rfl

theorem result_parse_of_short (h : find? asset = some m)
    (hshort : asset.length < m + recordsDistance) :
    (parse name asset).result = .error (.refused ⟨.missing (.trailerCount name), none⟩) := by
  have hroom : asset.length < m + countDistance + 2 := hshort
  simp only [parse, h, parseAt, if_pos hroom, Build.result_fail]

theorem result_parse_of_half? {count : Nat} (h : find? asset = some m)
    (hcount : Bytes.half? asset (m + countDistance) = some count) :
    (parse name asset).result =
      (records name count count .empty (asset.drop (m + recordsDistance))).result := by
  rw [parse, h]
  exact result_parseAt_of_half? hcount name

/-- **A trailer is read exactly where one stands**, and its records give what is read. -/
theorem parse_eq_ok_iff :
    (parse name asset).result = .ok trailer ↔
      ∃ m rs, StandsAt asset m rs ∧ trailer = OrderedMap.ofList (rs.map Record.entry) := by
  constructor
  · intro h
    cases hfind : find? asset with
    | none =>
      rw [result_parse_of_find?_eq_none hfind] at h
      cases h
    | some m =>
      rcases Nat.lt_or_ge asset.length (m + recordsDistance) with hshort | hroom
      · rw [result_parse_of_short hfind hshort] at h
        cases h
      · have hread : (Bytes.half? asset (m + countDistance)).isSome := by
          rw [Bytes.half?, Option.isSome_map]
          exact Bytes.slice?_isSome_of_le hroom
        obtain ⟨count, hcount⟩ := Option.isSome_iff_exists.mp hread
        rw [result_parse_of_half? hfind hcount] at h
        obtain ⟨rs, tail, rfl, hbytes⟩ := exists_records_of_ok h
        rw [hbytes, result_records_flatMap] at h
        exact ⟨m, rs, ⟨hfind, hcount, hbytes ▸ List.prefix_append _ _⟩, (Except.ok.inj h).symm⟩
  · rintro ⟨m, rs, hstands, rfl⟩
    obtain ⟨tail, hbytes⟩ := hstands.records
    rw [result_parse_of_half? hstands.first hstands.count, ← hbytes]
    exact result_records_flatMap name rs.length .empty rs tail

/-- **An asset that is cut before the end of its last record is refused**, and it is said what is
missing. -/
theorem StandsAt.result_parse_take (h : StandsAt asset m rs) (hn : n < stop m rs) (name : String) :
    (parse name (asset.take n)).result =
      .error (.refused ⟨.missing (shortage name m rs n), none⟩) := by
  have hlength : (asset.take n).length = n := List.length_take_of_le (hn.le.trans h.stop_le)
  rw [shortage]
  split
  · next hmarker => exact result_parse_of_find?_eq_none (find?_take h.first hmarker)
  · next hmarker =>
    have hfind : find? (asset.take n) = some m := by
      have hfound := find?_take_append h.first (not_lt.mp hmarker) []
      rwa [List.append_nil] at hfound
    split
    · next hshort => exact result_parse_of_short hfind (hlength.symm ▸ hshort)
    · next hcounted =>
      have hcount : Bytes.half? (asset.take n) (m + countDistance) = some rs.length := by
        have hread := half?_take_append h.count (not_lt.mp hcounted) []
        rwa [List.append_nil] at hread
      -- what is left of the records is too short for all of them
      have hleft : n - (m + recordsDistance) < (rs.flatMap Record.bytes).length := by
        rw [stop] at hn
        omega
      obtain ⟨tail, hbytes⟩ := h.records
      rw [result_parse_of_half? hfind hcount, List.drop_take, ← hbytes,
        List.take_append_of_le_length hleft.le]
      exact result_records_take name rs.length .empty rs hleft

/-- **A trailer is read from exactly the bytes up to the end of its last record.** Whatever comes
behind these may be cut off and replaced by anything; if one of them is cut off, the asset is
refused for what is missing. -/
theorem parse_reads_to_stop (h : (parse name asset).result = .ok trailer) :
    ∃ m rs, StandsAt asset m rs ∧ trailer = OrderedMap.ofList (rs.map Record.entry) ∧
      stop m rs ≤ asset.length ∧
      (∀ n, stop m rs ≤ n → ∀ tail,
        (parse name (asset.take n ++ tail)).result = .ok trailer) ∧
      ∀ n < stop m rs, (parse name (asset.take n)).result =
        .error (.refused ⟨.missing (shortage name m rs n), none⟩) := by
  obtain ⟨m, rs, hstands, rfl⟩ := parse_eq_ok_iff.mp h
  refine ⟨m, rs, hstands, rfl, hstands.stop_le, ?_, ?_⟩
  · intro n hn tail
    exact parse_eq_ok_iff.mpr ⟨m, rs, hstands.take_append hn tail, rfl⟩
  · intro n hn
    exact hstands.result_parse_take hn name

/-- An asset with two records and a byte behind them. The first name is no valid text, and the
second one is empty. -/
def shortAsset : Bytes :=
  [0xDF, 0] ++ marker ++ [0x20, 0, 2] ++ [0xFF, 0, 0, 0, 0, 0x20] ++ [0, 0, 0, 0, 0] ++ [0xAA]

/-- The trailer of that asset. -/
def shortTrailer : Trailer :=
  ⟨[("\uFFFD", 0x20), ("", 0)], by decide⟩

/-- The last record ends at 31, with a zero byte that is not the end of a name. -/
theorem parse_reads_to_stop_short :
    (parse "short" shortAsset).result = .ok shortTrailer ∧
      (∀ n, 31 ≤ n → ∀ tail,
        (parse "short" (shortAsset.take n ++ tail)).result = .ok shortTrailer) ∧
      ∀ n < 31, ∃ what, (parse "short" (shortAsset.take n)).result =
        .error (.refused ⟨.missing what, none⟩) := by
  have hparse : (parse "short" shortAsset).result = .ok shortTrailer := by decide +kernel
  have hwhole : (parse "short" (shortAsset.take 31)).result = .ok shortTrailer := by decide +kernel
  have hcut : (parse "short" (shortAsset.take 30)).result ≠ .ok shortTrailer := by decide +kernel
  obtain ⟨m, rs, -, -, -, hlong, hshort⟩ := parse_reads_to_stop hparse
  have hstop : stop m rs = 31 := by
    refine le_antisymm ?_ ?_
    · by_contra hlt
      rw [hshort 31 (not_le.mp hlt)] at hwhole
      cases hwhole
    · by_contra hlt
      have hread := hlong 30 (by omega) []
      rw [List.append_nil] at hread
      exact hcut hread
  rw [hstop] at hlong hshort
  exact ⟨hparse, hlong, fun n hn => ⟨_, hshort n hn⟩⟩

end ModelPatch.Trailer

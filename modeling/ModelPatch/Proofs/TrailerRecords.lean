import Mathlib
import ModelPatch.Asset.Trailer
import ModelPatch.Proofs.ByteReads

/-!
# The records of a trailer

A record carries no length: its name goes on to the first zero byte, and an offset of four bytes
follows. Where the next record starts is known only when the one before it has been read. What can
be said about a single record is therefore said for any bytes behind it, and a list of records is
done by induction: records are read one behind the other, whatever has been read is made of records,
and a list that is cut short is refused, wherever the cut is.

## Main definitions

* `Trailer.Record`: a record, by the bytes of its name and its offset;
* `Trailer.Record.completeIn`: the records that are complete in the first bytes of all.

## Main results

* `Trailer.result_records_append`: one record is read, and reading goes on behind it;
* `Trailer.result_records_flatMap`: records are read one behind the other;
* `Trailer.exists_records_of_ok`: whatever is read is made of records;
* `Trailer.result_records_take`: records that are cut short are refused;
* `Trailer.result_parseAt_of_half?`: a trailer is read as its records are.
-/

namespace ModelPatch

namespace Trailer

/-- A record as it stands in a trailer. -/
structure Record where
  /-- The bytes of the name, which need not be valid text. -/
  spelled : Bytes
  /-- The offset. -/
  offset : Nat
  /-- The name ends at the first zero byte. -/
  name_ends : 0 ∉ spelled
  /-- The offset fits in four bytes. -/
  offset_fits : offset < Bytes.wordLimit

namespace Record

/-- The bytes of a record: the name, a zero byte, and the offset in four bytes. -/
def bytes (r : Record) : Bytes :=
  r.spelled ++ 0 :: Bytes.ofNat 4 r.offset

/-- The name and the offset that are read from a record. -/
def entry (r : Record) : String × Nat :=
  (String.ofList (Utf8.decode r.spelled), r.offset)

/-- The records that are complete in the first `n` bytes of all. -/
def completeIn : (n : Nat) → List Record → List Record
  | _, [] => []
  | n, r :: rest => if r.bytes.length ≤ n then r :: completeIn (n - r.bytes.length) rest else []

end Record

/-- The entries of records, added to those that are there. -/
def addEntries (seen : Trailer) (rs : List Record) : Trailer :=
  (rs.map Record.entry).foldl (fun m p => m.insert p.1 p.2) seen

/-! ### One record -/

variable {bytes spelled rest : Bytes} {r : Record}

/-- A name is cut at the first zero byte, if there is room for an offset behind it. -/
theorem cutName?_eq_some_iff :
    cutName? bytes = some (spelled, rest) ↔
      bytes = spelled ++ 0 :: rest ∧ 0 ∉ spelled ∧ 4 ≤ rest.length := by
  rw [cutName?, Option.filter_eq_some_iff, cutAt_eq_some_iff, and_assoc, decide_eq_true_iff]

theorem cutName?_append (r : Record) (rest : Bytes) :
    cutName? (r.bytes ++ rest) = some (r.spelled, Bytes.ofNat 4 r.offset ++ rest) := by
  refine cutName?_eq_some_iff.mpr ⟨?_, r.name_ends, ?_⟩
  · rw [Record.bytes, List.append_assoc, List.cons_append]
  · rw [List.length_append, Bytes.length_ofNat]
    exact Nat.le_add_right 4 _

/-- Where a name is cut, a record stands. -/
theorem exists_record_of_cutName? (h : cutName? bytes = some (spelled, rest)) :
    ∃ (r : Record) (tail : Bytes), bytes = r.bytes ++ tail := by
  obtain ⟨rfl, hname, hroom⟩ := cutName?_eq_some_iff.mp h
  have hlength : (rest.take 4).length = 4 := List.length_take_of_le hroom
  have hoffset : Bytes.ofNat 4 (Bytes.toNat (rest.take 4)) = rest.take 4 := by
    have hback := Bytes.ofNat_toNat (rest.take 4)
    rwa [hlength] at hback
  have hlimit : Bytes.toNat (rest.take 4) < Bytes.wordLimit := by
    have hbound := Bytes.toNat_lt (rest.take 4)
    rwa [hlength] at hbound
  refine ⟨⟨spelled, Bytes.toNat (rest.take 4), hname, hlimit⟩, rest.drop 4, ?_⟩
  rw [Record.bytes, hoffset, List.append_assoc, List.cons_append, List.take_append_drop]

/-- A record that is cut short is not read: its name has no end, or its offset is too short. -/
theorem cutName?_take {n : Nat} (hn : n < r.bytes.length) : cutName? (r.bytes.take n) = none := by
  cases hcut : cutName? (r.bytes.take n) with
  | none => rfl
  | some cut =>
    obtain ⟨hfront, hname, hroom⟩ := cutName?_eq_some_iff.mp hcut
    -- put back, the missing bytes would stand behind an offset that is complete
    have hwhole : cutName? (r.bytes ++ []) = some (cut.1, cut.2 ++ r.bytes.drop n) := by
      refine cutName?_eq_some_iff.mpr ⟨?_, hname, ?_⟩
      · rw [List.append_nil, ← List.cons_append, ← List.append_assoc, ← hfront,
          List.take_append_drop]
      · rw [List.length_append]
        omega
    rw [cutName?_append, Option.some.injEq, Prod.mk.injEq, List.append_nil] at hwhole
    have hlength := congrArg List.length hwhole.2
    rw [Bytes.length_ofNat, List.length_append, List.length_drop] at hlength
    omega

theorem word?_ofNat_append {n : Nat} (hn : n < Bytes.wordLimit) (rest : Bytes) :
    Bytes.word? (Bytes.ofNat 4 n ++ rest) 0 = some n := by
  refine Bytes.word?_eq_some_of_ofNat hn ?_
  simpa using Bytes.slice?_append_left (Bytes.ofNat 4 n) rest

/-- **One record is read**, and reading goes on behind it. -/
theorem result_records_append (r : Record) (asset : String) (declared remaining : Nat)
    (seen : Trailer) (rest : Bytes) :
    (records asset declared (remaining + 1) seen (r.bytes ++ rest)).result =
      (records asset declared remaining (seen.insert r.entry.1 r.entry.2) rest).result := by
  have hskip : (Bytes.ofNat 4 r.offset ++ rest).drop 4 = rest :=
    List.drop_left' (Bytes.length_ofNat 4 r.offset)
  rw [records, cutName?_append]
  simp only [word?_ofNat_append r.offset_fits, hskip, Build.result_bind, Build.result_need_some,
    Build.result_note]
  rfl

/-! ### Many records -/

variable {asset : String} {declared remaining : Nat} {seen trailer : Trailer}

/-- Records are read one behind the other, and what stands behind the last is not looked at. -/
theorem result_records_flatMap (asset : String) (declared : Nat) (seen : Trailer)
    (rs : List Record) (tail : Bytes) :
    (records asset declared rs.length seen (rs.flatMap Record.bytes ++ tail)).result =
      .ok (addEntries seen rs) := by
  induction rs generalizing seen with
  | nil => rfl
  | cons r rest ih =>
    rw [List.flatMap_cons, List.append_assoc, List.length_cons, result_records_append, ih]
    rfl

/-- Whatever is read is made of records. -/
theorem exists_records_of_ok (h : (records asset declared remaining seen bytes).result =
    .ok trailer) :
    ∃ (rs : List Record) (tail : Bytes), rs.length = remaining ∧
      bytes = rs.flatMap Record.bytes ++ tail := by
  induction remaining generalizing seen bytes with
  | zero => exact ⟨[], bytes, rfl, rfl⟩
  | succ remaining ih =>
    cases hcut : cutName? bytes with
    | none =>
      rw [records, hcut] at h
      cases h
    | some cut =>
      obtain ⟨r, behind, rfl⟩ := exists_record_of_cutName? hcut
      rw [result_records_append] at h
      obtain ⟨rs, tail, hlength, rfl⟩ := ih h
      exact ⟨r :: rs, tail, by rw [List.length_cons, hlength],
        by rw [List.flatMap_cons, List.append_assoc]⟩

/-- **Records that are cut short are refused**, with the number of names among those that are
complete. -/
theorem result_records_take (asset : String) (declared : Nat) (seen : Trailer) (rs : List Record)
    {n : Nat} (hn : n < (rs.flatMap Record.bytes).length) :
    (records asset declared rs.length seen ((rs.flatMap Record.bytes).take n)).result =
      .error (.refused ⟨.missing (.trailerRecords asset
        (addEntries seen (Record.completeIn n rs)).size declared), none⟩) := by
  induction rs generalizing seen n with
  | nil => cases hn
  | cons r rest ih =>
    rw [List.flatMap_cons, List.length_append] at hn
    rw [List.flatMap_cons, List.take_append, List.length_cons, Record.completeIn]
    split
    · next hle =>
      rw [List.take_of_length_le hle, result_records_append, ih _ (by omega)]
      rfl
    · next hlt =>
      rw [not_le] at hlt
      rw [Nat.sub_eq_zero_of_le hlt.le, List.take_zero, List.append_nil, records,
        cutName?_take hlt]
      rfl

/-! ### The number of records -/

/-- The number of records is read only where there is room for it. -/
theorem room_of_half? {m count : Nat} (h : Bytes.half? bytes (m + countDistance) = some count) :
    m + recordsDistance ≤ bytes.length := by
  obtain ⟨two, htwo, -⟩ := Option.map_eq_some_iff.mp h
  have hroom := Bytes.le_length_of_slice? htwo (by decide)
  rwa [Nat.add_assoc] at hroom

/-- Behind the number of records, as many records are read. -/
theorem result_parseAt_of_half? {m count : Nat}
    (h : Bytes.half? bytes (m + countDistance) = some count) (name : String) :
    (parseAt name m bytes).result =
      (records name count count .empty (bytes.drop (m + recordsDistance))).result := by
  have hroom : ¬ bytes.length < m + countDistance + 2 := Nat.not_lt.mpr (room_of_half? h)
  simp only [parseAt, if_neg hroom, h, Build.result_bind, Build.result_need_some,
    Build.result_note]
  rfl

end Trailer

end ModelPatch

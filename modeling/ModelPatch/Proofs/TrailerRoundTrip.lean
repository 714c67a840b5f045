import Mathlib
import ModelPatch.Proofs.OrderedMaps
import ModelPatch.Proofs.TrailerRecords
import ModelPatch.Proofs.Utf8Text

/-!
# Trailers that are written are read back

A trailer is written behind a body here, and then something else behind the trailer. Reading finds
the trailer at the end of the body, whatever the body ends in: the first byte of the marker does not
come up in it again, so no occurrence of the marker can straddle the seam. What is written behind it
are records: names have any length, but they hold no zero byte, and so the zero behind a name is the
first one.

## Main definitions

* `Trailer.encodeRecord`, `Trailer.encode`: the bytes of a record and of a trailer;
* `Trailer.IsRecord`: a record that can be written.

## Main results

* `Bytes.firstPosition?_append`: a pattern that cannot overlap itself is found behind a body that
  does not hold it;
* `Trailer.exists_records_of_isRecord`: what is written are records;
* `Trailer.parse_encode`: a trailer is found, cut off and read back.
-/

namespace ModelPatch

/-! ### Positions -/

namespace Bytes

variable {pattern body : Bytes}

/-- A pattern whose first byte does not come up in it again is found behind a body that does not
hold it, even if the body ends in a part of it. -/
theorem firstPosition?_append
    (hpattern : ∀ i, 0 < i → i < pattern.length → pattern[i]? ≠ pattern[0]?)
    (hbody : ¬ pattern <:+: body) (rest : Bytes) :
    firstPosition? pattern (body ++ (pattern ++ rest)) = some body.length := by
  refine firstPosition?_eq_some_iff.mpr ⟨by simp, ?_, ?_⟩
  · rw [List.drop_left]
    exact List.prefix_append pattern rest
  · intro j hj hat
    rcases Nat.lt_or_ge body.length (j + pattern.length) with hover | hinside
    · -- The occurrence straddles the seam: the byte behind the body is inside it and is its first.
      have hbyte := (slice?_eq_some_iff_getElem?.mp (isPrefix_drop_iff_slice?.mp hat)).2
        (body.length - j) (by omega)
      rw [Nat.add_sub_cancel' hj.le, List.getElem?_append_right le_rfl, Nat.sub_self,
        List.getElem?_append_left (by omega)] at hbyte
      exact hpattern (body.length - j) (by omega) (by omega) hbyte.symm
    · rw [List.drop_append_of_le_length hj.le] at hat
      have hfront : pattern <+: body.drop j := by
        refine List.prefix_of_prefix_length_le hat (List.prefix_append _ _) ?_
        rw [List.length_drop]
        omega
      exact hbody (hfront.isInfix.trans (List.drop_suffix j body).isInfix)

end Bytes

namespace Trailer

/-! ### Writing -/

/-- The bytes of a record: a name, a zero byte, and the offset in four bytes. -/
def encodeRecord (record : String × Nat) : Bytes :=
  Utf8.encode record.1.toList ++ 0 :: Bytes.ofNat 4 record.2

/-- The bytes of a trailer: the marker, a byte of padding, the number of records in two bytes, and
the records. -/
def encode (padding : UInt8) (records : List (String × Nat)) : Bytes :=
  marker ++ padding :: (Bytes.ofNat 2 records.length ++ records.flatMap encodeRecord)

/-- A record that can be written: its name holds no null character, and its offset fits in a
word. -/
structure IsRecord (record : String × Nat) : Prop where
  /-- The name ends at the first zero byte. -/
  name : '\x00' ∉ record.1.toList
  /-- The offset fits in four bytes. -/
  offset : record.2 < Bytes.wordLimit

/-- What is written are records, and they have the entries that were to be written. -/
theorem exists_records_of_isRecord {written : List (String × Nat)}
    (h : ∀ r ∈ written, IsRecord r) :
    ∃ rs : List Record, rs.length = written.length ∧
      rs.flatMap Record.bytes = written.flatMap encodeRecord ∧ rs.map Record.entry = written := by
  induction written with
  | nil => exact ⟨[], rfl, rfl, rfl⟩
  | cons record rest ih =>
    have hfirst := h record List.mem_cons_self
    obtain ⟨rs, hlength, hbytes, hentries⟩ := ih fun r hr => h r (List.mem_cons_of_mem record hr)
    refine ⟨⟨Utf8.encode record.1.toList, record.2, mt Utf8.zero_mem_encode_iff.mp hfirst.name,
      hfirst.offset⟩ :: rs, by rw [List.length_cons, hlength, List.length_cons], ?_, ?_⟩
    · rw [List.flatMap_cons, hbytes]
      rfl
    · rw [List.map_cons, hentries, Record.entry, Utf8.decode_encode, String.ofList_toList]

/-! ### Trailers -/

theorem marker_head_once (i : Nat) (hpos : 0 < i) (hlt : i < marker.length) :
    marker[i]? ≠ marker[0]? := by
  have hall : ∀ i < marker.length, 0 < i → marker[i]? ≠ marker[0]? := by decide +kernel
  exact hall i hlt hpos

theorem result_parseAt_encode {records : List (String × Nat)} (hcount : records.length ≤ 65535)
    (hrecords : ∀ r ∈ records, IsRecord r) (name : String) (body tail : Bytes) (padding : UInt8) :
    (parseAt name body.length (body ++ encode padding records ++ tail)).result =
      .ok (OrderedMap.ofList records) := by
  have hasset : body ++ encode padding records ++ tail =
      (body ++ (marker ++ [padding])) ++
        (Bytes.ofNat 2 records.length ++ (records.flatMap encodeRecord ++ tail)) := by
    simp [encode]
  have hfront : (body ++ (marker ++ [padding])).length = body.length + countDistance := by
    rw [List.length_append, List.length_append, length_marker]
    rfl
  have hcountAt : Bytes.half? (body ++ encode padding records ++ tail)
      (body.length + countDistance) = some records.length := by
    have hslice := Bytes.slice?_append_append (body ++ (marker ++ [padding]))
      (Bytes.ofNat 2 records.length) (records.flatMap encodeRecord ++ tail)
    rw [hfront, Bytes.length_ofNat] at hslice
    have hfits : records.length % 256 ^ 2 = records.length := Nat.mod_eq_of_lt (by omega)
    rw [hasset, Bytes.half?, hslice, Option.map_some, Bytes.toNat_ofNat, hfits]
  have hrest : (body ++ encode padding records ++ tail).drop (body.length + recordsDistance) =
      records.flatMap encodeRecord ++ tail := by
    have hplace : body.length + recordsDistance =
        (body ++ (marker ++ [padding]) ++ Bytes.ofNat 2 records.length).length := by
      rw [List.length_append, hfront, Bytes.length_ofNat]
      rfl
    rw [hasset, ← List.append_assoc, hplace, List.drop_left]
  rw [result_parseAt_of_half? hcountAt, hrest]
  obtain ⟨rs, hlength, hbytes, hentries⟩ := exists_records_of_isRecord hrecords
  have hread := result_records_flatMap name records.length .empty rs tail
  rwa [hlength, hbytes, addEntries, hentries] at hread

/-- **A trailer is found, cut off and read back.** The body may be anything that does not hold the
marker, the padding any byte, and the bytes behind the trailer anything at all. The names come in
the order in which they first came up among the records, and each has the offset that its last
record gives. -/
theorem parse_encode {body : Bytes} {records : List (String × Nat)} (hbody : ¬ marker <:+: body)
    (hcount : records.length ≤ 65535) (hrecords : ∀ r ∈ records, IsRecord r) (name : String)
    (padding : UInt8) (tail : Bytes) :
    find? (body ++ encode padding records ++ tail) = some body.length ∧
      trim (body ++ encode padding records ++ tail) = body ∧
      ∃ trailer, (parse name (body ++ encode padding records ++ tail)).result = .ok trailer ∧
        trailer.keys = (records.map Prod.fst).eraseDups ∧
        ∀ key, trailer.get? key = records.reverse.lookup key := by
  have hfind : find? (body ++ encode padding records ++ tail) = some body.length := by
    rw [find?, encode, List.append_assoc, List.append_assoc]
    exact Bytes.firstPosition?_append marker_head_once hbody _
  refine ⟨hfind, ?_, OrderedMap.ofList records, ?_, OrderedMap.keys_ofList records,
    OrderedMap.get?_ofList records⟩
  · rw [trim, hfind]
    simp only [List.append_assoc]
    exact List.take_left
  · rw [parse, hfind]
    exact result_parseAt_encode hcount hrecords name body tail padding

/-- A body that ends in the first bytes of the marker. -/
def seamBody : Bytes := [0xDF, 0] ++ Utf8.encode "!Play".toList

/-- Records of which two have the same name, one of them with the largest offset, and one has an
empty name. -/
def seamRecords : List (String × Nat) :=
  [("Schwert-Größe", 0x200), ("", 0), ("Schwert-Größe", 0xFFFFFFFF)]

/-- The trailer is found at the seam and not before it, and a second one behind it is not looked
at. -/
theorem parse_encode_seam :
    ¬ marker <:+: seamBody ∧ (∀ r ∈ seamRecords, IsRecord r) ∧
      find? (seamBody ++ encode 0x20 seamRecords ++ encode 0 []) = some 7 ∧
      trim (seamBody ++ encode 0x20 seamRecords ++ encode 0 []) = seamBody ∧
      ∃ trailer,
        (parse "seam" (seamBody ++ encode 0x20 seamRecords ++ encode 0 [])).result = .ok trailer ∧
        trailer.keys = ["Schwert-Größe", ""] ∧
        trailer.get? "Schwert-Größe" = some 0xFFFFFFFF ∧ trailer.get? "" = some 0 := by
  have hbody : ¬ marker <:+: seamBody := by decide +kernel
  have hrecords : ∀ r ∈ seamRecords, IsRecord r := by
    have hall : ∀ r ∈ seamRecords, '\x00' ∉ r.1.toList ∧ r.2 < Bytes.wordLimit := by decide +kernel
    exact fun r hr => ⟨(hall r hr).1, (hall r hr).2⟩
  obtain ⟨hfind, htrim, trailer, hparse, hkeys, hget⟩ :=
    parse_encode hbody (by decide : seamRecords.length ≤ 65535) hrecords "seam" 0x20 (encode 0 [])
  refine ⟨hbody, hrecords, hfind.trans ?_, htrim, trailer, hparse, hkeys.trans ?_,
    (hget _).trans ?_, (hget _).trans ?_⟩
  all_goals decide +kernel

end Trailer

end ModelPatch

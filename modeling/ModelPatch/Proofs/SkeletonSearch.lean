import Mathlib
import ModelPatch.Asset.Skeleton
import ModelPatch.Proofs.ByteReads

/-!
# What the search for a skeleton reads

The examination of a place is a chain of reads through pointers found in the asset. Two things are
said about it. It never reads outside the asset, so that it always comes to a verdict and the search
is `List.find?` on the candidates. And it reads little: the first word of the header, the limb
table, and sixteen bytes for each limb. A verdict therefore carries over to any other byte string
that has these bytes, even if the header stands elsewhere in it.

## Main definitions

* `Skeleton.limbAt?`: the limb that a slot of a limb table points to.

## Main results

* `Skeleton.examine?_isSome`: an examination reads inside the asset;
* `Skeleton.result_find`, `Skeleton.locate_eq_ok_iff`: the search finds the first sound candidate;
* `Skeleton.slice?_of_locate`, `Skeleton.counts_of_locate`: what the located header consists of;
* `Skeleton.slots_of_locate`: what it points to passes;
* `Skeleton.sound_of_agreeOn`: a sound header is sound wherever what it points to is the same.
-/

namespace ModelPatch.Skeleton

variable {asset output : Bytes} {table slot offset : Nat}

/-! ### Limbs -/

theorem isPlaced_iff {size : Nat} :
    isPlaced asset offset size = true ↔ offset + size < asset.length ∧ offset % 8 = 0 := by
  simp [isPlaced]

/-- A slot whose four bytes lie in the asset is examined without a read outside it. -/
theorem isLimb?_isSome (h : slot + 4 ≤ asset.length) : (isLimb? asset slot).isSome := by
  obtain ⟨address, haddress⟩ := Option.isSome_iff_exists.mp (Bytes.word?_isSome_of_le h)
  rw [isLimb?, haddress]
  by_cases hid : address / Segment.size = Segment.id
  swap
  · simp [hid]
  by_cases hplaced : isPlaced asset (Segment.offset address) limbSize = true
  · have hroom := (isPlaced_iff.mp hplaced).1
    have hnear : (Bytes.word? asset (Segment.offset address + nearDistance)).isSome :=
      Bytes.word?_isSome_of_le (by simp only [limbSize, nearDistance] at *; omega)
    have hfar : (Bytes.word? asset (Segment.offset address + farDistance)).isSome :=
      Bytes.word?_isSome_of_le (by simp only [limbSize, farDistance] at *; omega)
    obtain ⟨near, hnear⟩ := Option.isSome_iff_exists.mp hnear
    obtain ⟨far, hfar⟩ := Option.isSome_iff_exists.mp hfar
    simp [hid, hplaced, hnear, hfar]
  · simp [hid, hplaced]

/-- A slot passes if it holds the address of a limb that lies in the asset and whose two display
lists agree. -/
theorem isLimb?_eq_true_iff :
    isLimb? asset slot = some true ↔
      ∃ address list, Bytes.word? asset slot = some address ∧
        address / Segment.size = Segment.id ∧
        isPlaced asset (Segment.offset address) limbSize = true ∧
        Bytes.word? asset (Segment.offset address + nearDistance) = some list ∧
        Bytes.word? asset (Segment.offset address + farDistance) = some list := by
  rw [isLimb?]
  constructor
  · intro h
    obtain ⟨address, haddress, h⟩ := Option.bind_eq_some_iff.mp h
    by_cases hid : address / Segment.size = Segment.id
    · by_cases hplaced : isPlaced asset (Segment.offset address) limbSize = true
      · simp only [hid, hplaced, ne_eq, not_true_eq_false, if_false, Bool.not_true,
          Bool.false_eq_true] at h
        obtain ⟨near, hnear, h⟩ := Option.bind_eq_some_iff.mp h
        obtain ⟨far, hfar, h⟩ := Option.bind_eq_some_iff.mp h
        obtain rfl : near = far := by simpa using h
        exact ⟨address, near, haddress, hid, hplaced, hnear, hfar⟩
      · simp [hid, hplaced] at h
    · simp [hid] at h
  · rintro ⟨address, list, haddress, hid, hplaced, hnear, hfar⟩
    simp [haddress, hid, hplaced, hnear, hfar]

/-- The limb that the slot with index `i` of the table at `table` points to. -/
def limbAt? (asset : Bytes) (table i : Nat) : Option Nat :=
  (Bytes.word? asset (table + i * slotSize)).map Segment.offset

/-! ### Examinations -/

theorem examineLimbs?_isSome {indices : List Nat}
    (h : ∀ i ∈ indices, table + i * slotSize + 4 ≤ asset.length) :
    (examineLimbs? asset table indices).isSome := by
  induction indices with
  | nil => rfl
  | cons i rest ih =>
    obtain ⟨passes, hpasses⟩ :=
      Option.isSome_iff_exists.mp (isLimb?_isSome (h i List.mem_cons_self))
    rw [examineLimbs?, hpasses]
    cases passes with
    | true => exact ih fun j hj => h j (List.mem_cons_of_mem _ hj)
    | false => rfl

theorem examineLimbs?_eq_sound_iff {indices : List Nat} :
    examineLimbs? asset table indices = some .sound ↔
      ∀ i ∈ indices, isLimb? asset (table + i * slotSize) = some true := by
  induction indices with
  | nil => simp [examineLimbs?]
  | cons i rest ih =>
    rw [examineLimbs?, List.forall_mem_cons, ← ih]
    cases isLimb? asset (table + i * slotSize) with
    | none => simp
    | some passes => cases passes <;> simp

/-- **An examination reads inside the asset**, whatever the asset and the place. -/
theorem examine?_isSome (asset : Bytes) (offset : Int) : (examine? asset offset).isSome := by
  rw [examine?]
  split
  · rfl
  · next hroom =>
    simp only [headerSize, not_or, not_lt] at hroom
    have hword : (Bytes.word? asset offset.toNat).isSome :=
      Bytes.word?_isSome_of_le (by omega)
    obtain ⟨address, haddress⟩ := Option.isSome_iff_exists.mp hword
    rw [haddress]
    by_cases hplaced : isPlaced asset (Segment.offset address) tableSize = true
    · simp only [Option.bind_eq_bind, Option.bind_some, hplaced, if_true]
      refine examineLimbs?_isSome fun i hi => ?_
      have hlt := List.mem_range.mp hi
      have htable := (isPlaced_iff.mp hplaced).1
      simp only [tableSize, limbCount, slotSize] at *
      omega
    · simp [hplaced]

/-- A header is sound if it lies in the asset, its limb table is placed well, and every slot of
that table passes. -/
theorem examine?_eq_sound_iff :
    examine? asset (offset : Int) = some .sound ↔
      offset + headerSize ≤ asset.length ∧
        ∃ address, Bytes.word? asset offset = some address ∧
          isPlaced asset (Segment.offset address) tableSize = true ∧
          ∀ i < limbCount, isLimb? asset (Segment.offset address + i * slotSize) = some true := by
  rw [examine?]
  by_cases hroom : (offset : Int) < 0 ∨ (asset.length : Int) < offset + headerSize
  · rw [if_pos hroom]
    constructor
    · intro h
      cases h
    · rintro ⟨hle, -⟩
      omega
  · rw [if_neg hroom, Int.toNat_natCast, and_iff_right (by omega : offset + headerSize ≤ _)]
    cases haddress : Bytes.word? asset offset with
    | none => simp
    | some address =>
      by_cases hplaced : isPlaced asset (Segment.offset address) tableSize = true
      · simp [hplaced, examineLimbs?_eq_sound_iff]
      · simp [hplaced]

/-! ### The search -/

theorem result_isHeader (asset : Bytes) (offset : Int) :
    (isHeader asset offset).result = .ok (decide (examine? asset offset = some .sound)) := by
  obtain ⟨verdict, hverdict⟩ := Option.isSome_iff_exists.mp (examine?_isSome asset offset)
  have hreport : (report offset verdict).result = .ok () := by cases verdict <;> rfl
  rw [isHeader, Build.result_bind_eq_ok_iff]
  refine ⟨verdict, by rw [hverdict]; rfl, ?_⟩
  rw [Build.result_bind_eq_ok_iff]
  exact ⟨(), hreport, by simp [hverdict]⟩

theorem result_findAmong (asset : Bytes) (offsets : List Nat) :
    (findAmong asset offsets).result =
      .ok (offsets.find? fun o => decide (examine? asset (o : Int) = some .sound)) := by
  induction offsets with
  | nil => rfl
  | cons o rest ih =>
    rw [findAmong, Build.result_bind_eq_ok_iff]
    refine ⟨_, result_isHeader asset o, ?_⟩
    by_cases h : examine? asset (o : Int) = some .sound
    · simp [h]
    · simp [h, ih]

/-- The search always comes to an end, with the first candidate that is sound. -/
theorem result_find (asset : Bytes) :
    (find asset).result =
      .ok ((candidates asset).find? fun o => decide (examine? asset (o : Int) = some .sound)) :=
  result_findAmong asset (candidates asset)

theorem locate_eq_ok_iff {name : String} {s : Skeleton} :
    (locate name asset).result = .ok s ↔
      (find asset).result = .ok (some s.offset) ∧
        s.header = (asset.drop s.offset).take headerSize := by
  rw [locate, Build.result_bind_eq_ok_iff]
  constructor
  · rintro ⟨found, hfound, h⟩
    cases found with
    | none =>
      obtain ⟨_, _, h⟩ := Build.result_bind_eq_ok_iff.mp h
      cases h
    | some o =>
      obtain ⟨_, _, h⟩ := Build.result_bind_eq_ok_iff.mp h
      obtain rfl := Except.ok.inj h
      exact ⟨hfound, rfl⟩
  · rintro ⟨hfound, hheader⟩
    refine ⟨some s.offset, hfound, Build.result_bind_eq_ok_iff.mpr ⟨(), rfl, ?_⟩⟩
    rw [← hheader, Build.result_pure]

/-- The candidates are the places where the counts stand as they would in a header. -/
theorem mem_candidates_iff :
    offset ∈ candidates asset ↔
      Bytes.slice? asset (offset + 4) countPattern.length = some countPattern := by
  rw [candidates, List.mem_filterMap, ← Bytes.isPrefix_drop_iff_slice?]
  constructor
  · rintro ⟨p, hp, h⟩
    obtain ⟨-, hat⟩ := Bytes.mem_positions.mp hp
    split at h
    · next hle =>
      obtain rfl : p = offset + 4 := by simp only [Option.some.injEq] at h; omega
      exact hat
    · cases h
  · intro hat
    have hlen := hat.length_le
    simp only [List.length_drop, countPattern, List.length_cons, List.length_nil] at hlen
    exact ⟨offset + 4, Bytes.mem_positions.mpr ⟨by omega, hat⟩, by simp⟩

theorem pairwise_candidates (asset : Bytes) : (candidates asset).Pairwise (· < ·) := by
  refine (Bytes.pairwise_positions countPattern asset).filterMap _ fun p q hpq a ha b hb => ?_
  simp only [Option.ite_none_right_eq_some, Option.some.injEq] at ha hb
  omega

/-- What is found is a candidate and sound. -/
theorem sound_of_find (h : (find asset).result = .ok (some offset)) :
    Bytes.slice? asset (offset + 4) countPattern.length = some countPattern ∧
      examine? asset (offset : Int) = some .sound := by
  rw [result_find, Except.ok.injEq] at h
  exact ⟨mem_candidates_iff.mp (List.mem_of_find?_eq_some h), by simpa using List.find?_some h⟩

/-- The search finds a sound candidate if there is one, and none that stands behind it. -/
theorem exists_find_le
    (hcounts : Bytes.slice? asset (offset + 4) countPattern.length = some countPattern)
    (hsound : examine? asset (offset : Int) = some .sound) :
    ∃ o ≤ offset, (find asset).result = .ok (some o) := by
  have hmem : offset ∈ candidates asset := mem_candidates_iff.mpr hcounts
  obtain ⟨o, ho⟩ := Option.isSome_iff_exists.mp <| List.find?_isSome
    (p := fun o : Nat => decide (examine? asset (o : Int) = some .sound)).mpr
      ⟨offset, hmem, by simpa using hsound⟩
  refine ⟨o, ?_, by rw [result_find, ho]⟩
  obtain ⟨-, before, after, hsplit, hbefore⟩ := List.find?_eq_some_iff_append.mp ho
  rw [hsplit] at hmem
  rcases List.mem_append.mp hmem with hfront | hrest
  · exact absurd hsound (by simpa using hbefore offset hfront)
  · rcases List.mem_cons.mp hrest with rfl | hafter
    · exact Nat.le_refl _
    · have hsorted := pairwise_candidates asset
      rw [hsplit, List.pairwise_append] at hsorted
      exact Nat.le_of_lt ((List.pairwise_cons.mp hsorted.2.1).1 offset hafter)

/-! ### The header that is located -/

section Located

variable {name : String} {s : Skeleton}

/-- The bytes of a located header are those of the asset at its offset. -/
theorem slice?_of_locate (h : (locate name asset).result = .ok s) :
    Bytes.slice? asset s.offset headerSize = some s.header := by
  obtain ⟨hfind, hheader⟩ := locate_eq_ok_iff.mp h
  have hroom := (examine?_eq_sound_iff.mp (sound_of_find hfind).2).1
  rw [hheader]
  exact Bytes.slice?_eq_some_of_le hroom

/-- The counts stand in a located header behind its first word. -/
theorem counts_of_locate (h : (locate name asset).result = .ok s) :
    Bytes.slice? s.header 4 countPattern.length = some countPattern := by
  rw [Bytes.slice?_of_slice? (slice?_of_locate h) (by decide)]
  exact (sound_of_find (locate_eq_ok_iff.mp h).1).1

/-- The first word of a located header is the address of its limb table. -/
theorem exists_address_of_locate (h : (locate name asset).result = .ok s) :
    ∃ address, Bytes.word? s.header 0 = some address ∧ s.tableOffset = Segment.offset address := by
  have hlen : s.header.length = headerSize := (Bytes.slice?_eq_some_iff.mp (slice?_of_locate h)).2
  refine ⟨s.field 0 4, ?_, rfl⟩
  rw [Bytes.word?, Bytes.slice?_eq_some_of_le (by rw [hlen]; decide), Option.map_some, field]

/-- The limb table of a located header is placed well, and each of its slots passes. -/
theorem slots_of_locate (h : (locate name asset).result = .ok s) :
    isPlaced asset s.tableOffset tableSize = true ∧
      ∀ i < limbCount, isLimb? asset (s.tableOffset + i * slotSize) = some true := by
  obtain ⟨address, haddress, htable⟩ := exists_address_of_locate h
  obtain ⟨-, found, hfound, hplaced, hslots⟩ :=
    examine?_eq_sound_iff.mp (sound_of_find (locate_eq_ok_iff.mp h).1).2
  have hword := Bytes.word?_of_slice? (slice?_of_locate h) haddress
  obtain rfl : found = address := Option.some.inj (hfound.symm.trans hword)
  rw [htable]
  exact ⟨hplaced, hslots⟩

end Located

/-! ### Locality -/

theorem isLimb?_of_agreeOn (hslot : Bytes.AgreeOn output asset slot 4)
    (hlimb : ∀ address, Bytes.word? asset slot = some address →
      Bytes.AgreeOn output asset (Segment.offset address) limbSize ∧
        Segment.offset address + limbSize < output.length)
    (h : isLimb? asset slot = some true) : isLimb? output slot = some true := by
  obtain ⟨address, list, haddress, hid, hplaced, hnear, hfar⟩ := isLimb?_eq_true_iff.mp h
  obtain ⟨hagree, hroom⟩ := hlimb address haddress
  refine isLimb?_eq_true_iff.mpr ⟨address, list, hslot.word?.trans haddress, hid, ?_, ?_, ?_⟩
  · exact isPlaced_iff.mpr ⟨hroom, (isPlaced_iff.mp hplaced).2⟩
  · exact (hagree.part (by decide : nearDistance + 4 ≤ limbSize)).word?.trans hnear
  · exact (hagree.part (by decide : farDistance + 4 ≤ limbSize)).word?.trans hfar

/-- **Locality.** A header that is sound at `offset` in one byte string is sound at `place` in
another, if its first word stands there, and the limb table and the limbs are the same in both and
end before the last byte of the other. -/
theorem sound_of_agreeOn {place address : Nat} (h : examine? asset (offset : Int) = some .sound)
    (haddress : Bytes.word? asset offset = some address)
    (hplace : Bytes.word? output place = some address)
    (hroom : place + headerSize ≤ output.length)
    (htable : Bytes.AgreeOn output asset (Segment.offset address) tableSize ∧
      Segment.offset address + tableSize < output.length)
    (hlimbs : ∀ i < limbCount, ∀ limb, limbAt? asset (Segment.offset address) i = some limb →
      Bytes.AgreeOn output asset limb limbSize ∧ limb + limbSize < output.length) :
    examine? output (place : Int) = some .sound := by
  obtain ⟨-, found, hfound, hplaced, hslots⟩ := examine?_eq_sound_iff.mp h
  obtain rfl : found = address := Option.some.inj (hfound.symm.trans haddress)
  refine examine?_eq_sound_iff.mpr ⟨hroom, found, hplace, ?_, fun i hi => ?_⟩
  · exact isPlaced_iff.mpr ⟨htable.2, (isPlaced_iff.mp hplaced).2⟩
  · refine isLimb?_of_agreeOn (htable.1.part ?_) (fun limbAddress hlimb => ?_) (hslots i hi)
    · simp only [slotSize, tableSize, limbCount] at *
      omega
    · exact hlimbs i hi _ (by rw [limbAt?, hlimb, Option.map_some])

end ModelPatch.Skeleton

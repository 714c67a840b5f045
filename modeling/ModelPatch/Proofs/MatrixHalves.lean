import Mathlib
import ModelPatch.Matrix.Pack
import ModelPatch.Proofs.ByteReads

/-!
# Packed matrices keep all bits

When a matrix is packed, each of its sixteen patterns is torn into halves, and each half goes into
a word together with that of its neighbour, the upper ones into the first 32 bytes and the lower ones
into the last 32. The words are put together by shifts and masks, which must let no bit through to
the neighbour. That they do not is said once, for two patterns, as an equation between bit vectors;
all that follows is about where things are.

## Main definitions

* `upperHalf`, `lowerHalf`: the halves of an element.

## Main results

* `upperWord_eq_append`, `lowerWord_eq_append`: shifts and masks put two halves side by side;
* `packElements_eq_append`: all upper halves are followed by all lower halves;
* `slice?_packElements`: where the halves of an element are;
* `Grid.pack_halves`: the bytes of a matrix are the halves of its patterns, and determine them.
-/

namespace ModelPatch

/-! ### Lists -/

/-- A step taken for each item of a list succeeds if it succeeds for each. -/
theorem mapM_eq_ok_iff {ε α β : Type} {f : α → Except ε β} {xs : List α} {ys : List β} :
    xs.mapM f = .ok ys ↔ List.Forall₂ (fun x y => f x = .ok y) xs ys := by
  induction xs generalizing ys with
  | nil => cases ys <;> simp [pure, Except.pure]
  | cons x xs ih =>
    rw [List.mapM_cons]
    constructor
    · intro h
      cases hx : f x with
      | error e => simp [hx, bind, Except.bind] at h
      | ok y =>
        cases hxs : xs.mapM f with
        | error e => simp [hx, hxs, bind, Except.bind] at h
        | ok rest =>
          obtain rfl : y :: rest = ys := by
            simpa [hx, hxs, bind, Except.bind, pure, Except.pure] using h
          exact .cons hx (ih.mp hxs)
    · rintro (_ | ⟨hx, hxs⟩)
      simp [hx, ih.mpr hxs, bind, Except.bind, pure, Except.pure]

/-- It fails if it fails for some item. -/
theorem exists_mapM_eq_error_iff {ε α β : Type} {f : α → Except ε β} {xs : List α} :
    (∃ e, xs.mapM f = .error e) ↔ ∃ x ∈ xs, ∃ e, f x = .error e := by
  induction xs with
  | nil => simp [pure, Except.pure]
  | cons x xs ih =>
    rw [List.mapM_cons, List.exists_mem_cons_iff, ← ih]
    cases hx : f x with
    | error e => simp [bind, Except.bind]
    | ok y => cases hxs : xs.mapM f <;> simp [bind, Except.bind, pure, Except.pure]

/-- Where lists of one length are put behind each other, the place of an item tells in which list it
is, and where. -/
theorem getElem?_flatMap {α β : Type} {f : α → List β} {width : Nat}
    (hf : ∀ x, (f x).length = width) (xs : List α) (i : Nat) {j : Nat} (hj : j < width) :
    (xs.flatMap f)[width * i + j]? = xs[i]?.bind fun x => (f x)[j]? := by
  induction xs generalizing i with
  | nil => simp
  | cons x xs ih =>
    rw [List.flatMap_cons]
    cases i with
    | zero => rw [List.getElem?_append_left (by rw [hf]; omega)]; simp
    | succ i =>
      have hskip : width * (i + 1) + j - (f x).length = width * i + j := by
        rw [hf, Nat.mul_succ]
        omega
      rw [List.getElem?_append_right (by rw [hf, Nat.mul_succ]; omega), hskip, ih]
      simp

/-! ### Halves -/

/-- The upper half of an element. -/
def upperHalf (e : BitVec 32) : BitVec 16 := e.extractLsb' 16 16

/-- The lower half of an element. -/
def lowerHalf (e : BitVec 32) : BitVec 16 := e.extractLsb' 0 16

/-- Two halves make up an element. -/
theorem upperHalf_append_lowerHalf (e : BitVec 32) : upperHalf e ++ lowerHalf e = e := by
  refine BitVec.eq_of_getLsbD_eq ?_
  intro i hi
  rw [upperHalf, lowerHalf, BitVec.getLsbD_append]
  by_cases hlow : i < 16
  · simp [hlow]
  · have hplace : 16 + (i - 16) = i ∧ i - 16 < 16 := by omega
    simp [hlow, hplace]

/-- The bits that the mask of a word lets through. -/
theorem getLsbD_mask {i : Nat} (hi : i < 32) :
    (0xFFFF0000#32).getLsbD i = decide (16 ≤ i) ∧ (0xFFFF#32).getLsbD i = decide (i < 16) := by
  have hall : ∀ i < 32,
      (0xFFFF0000#32).getLsbD i = decide (16 ≤ i) ∧ (0xFFFF#32).getLsbD i = decide (i < 16) := by
    decide
  exact hall i hi

/-- **No bit of an upper half gets into the other.** -/
theorem upperWord_eq_append (a b : BitVec 32) :
    upperWord a b = upperHalf a ++ upperHalf b := by
  refine BitVec.eq_of_getLsbD_eq ?_
  intro i hi
  have hmask := (getLsbD_mask hi).1
  rw [upperWord, upperHalf, upperHalf, BitVec.getLsbD_append]
  by_cases hlow : i < 16
  · simp [hlow, hmask]
  · have hplace : 16 + (i - 16) = i ∧ i - 16 < 16 := by omega
    have hhigh : 16 ≤ i ∧ 32 ≤ 16 + i := by omega
    simp [hlow, hmask, hplace, hhigh]

/-- **No bit of a lower half gets into the other.** -/
theorem lowerWord_eq_append (a b : BitVec 32) :
    lowerWord a b = lowerHalf a ++ lowerHalf b := by
  refine BitVec.eq_of_getLsbD_eq ?_
  intro i hi
  obtain ⟨hupper, hlower⟩ := getLsbD_mask hi
  rw [lowerWord, lowerHalf, lowerHalf, BitVec.getLsbD_append]
  by_cases hlow : i < 16
  · simp [hlow, hupper, hlower]
  · have hhigh : 16 ≤ i ∧ i - 16 < 16 := by omega
    simp [hlow, hupper, hlower, hhigh]
    exact fun _ => hi

/-- The bytes of two halves that stand side by side. -/
theorem ofNat_append_halves (a b : BitVec 16) :
    Bytes.ofNat 4 (a ++ b).toNat = Bytes.ofNat 2 a.toNat ++ Bytes.ofNat 2 b.toNat := by
  have hb : b.toNat < 256 ^ 2 := b.isLt
  have hsum : (a ++ b).toNat = a.toNat * 256 ^ 2 + b.toNat := by
    rw [BitVec.toNat_append, ← Nat.shiftLeft_add_eq_or_of_lt b.isLt, Nat.shiftLeft_eq]
    rfl
  rw [hsum]
  exact Bytes.ofNat_add 2 a.toNat hb

/-! ### Elements -/

/-- Words that are made of halves are the halves, one behind the other. -/
theorem flatMap_pairWords {word : BitVec 32 → BitVec 32 → BitVec 32} {half : BitVec 32 → BitVec 16}
    (hword : ∀ a b, word a b = half a ++ half b) {elements : List (BitVec 32)}
    (heven : Even elements.length) :
    (pairWords word elements).flatMap (fun w => Bytes.ofNat 4 w.toNat) =
      elements.flatMap fun e => Bytes.ofNat 2 (half e).toNat := by
  induction elements using pairWords.induct with
  | case1 a b rest ih =>
    have hrest : Even rest.length := by simpa [Nat.even_add_one] using heven
    rw [pairWords, List.flatMap_cons, hword, ofNat_append_halves, ih hrest, List.flatMap_cons,
      List.flatMap_cons, List.append_assoc]
  | case2 elements hother =>
    match elements, hother, heven with
    | [], _, _ => rfl
    | [_], _, heven => simp at heven
    | a :: b :: rest, hother, _ => exact (hother a b rest rfl).elim

/-- **All upper halves are followed by all lower halves.** -/
theorem packElements_eq_append {elements : List (BitVec 32)} (heven : Even elements.length) :
    packElements elements =
      elements.flatMap (fun e => Bytes.ofNat 2 (upperHalf e).toNat) ++
        elements.flatMap fun e => Bytes.ofNat 2 (lowerHalf e).toNat := by
  rw [packElements, List.flatMap_append, flatMap_pairWords upperWord_eq_append heven,
    flatMap_pairWords lowerWord_eq_append heven]

theorem length_flatMap_halves (half : BitVec 32 → BitVec 16) (elements : List (BitVec 32)) :
    (elements.flatMap fun e => Bytes.ofNat 2 (half e).toNat).length = 2 * elements.length := by
  simp [List.length_flatMap, Nat.mul_comm]

theorem length_packElements {elements : List (BitVec 32)} (heven : Even elements.length) :
    (packElements elements).length = 4 * elements.length := by
  rw [packElements_eq_append heven, List.length_append, length_flatMap_halves,
    length_flatMap_halves]
  omega

/-- Halves that are laid out one behind the other are found where they were put. -/
theorem slice?_flatMap_halves (half : BitVec 32 → BitVec 16) {elements : List (BitVec 32)} {k : Nat}
    {e : BitVec 32} (h : elements[k]? = some e) :
    Bytes.slice? (elements.flatMap fun e => Bytes.ofNat 2 (half e).toNat) (2 * k) 2 =
      some (Bytes.ofNat 2 (half e).toNat) := by
  rw [Bytes.slice?_eq_some_iff_getElem?]
  refine ⟨Bytes.length_ofNat _ _, fun i hi => ?_⟩
  rw [getElem?_flatMap (fun e => Bytes.length_ofNat _ _) elements k hi, h, Option.bind_some]

/-- **Where the halves of an element are**: as far into their part of the bytes as the element is
into the elements. -/
theorem slice?_packElements {elements : List (BitVec 32)} (heven : Even elements.length) {k : Nat}
    {e : BitVec 32} (h : elements[k]? = some e) :
    Bytes.slice? (packElements elements) (2 * k) 2 = some (Bytes.ofNat 2 (upperHalf e).toNat) ∧
      Bytes.slice? (packElements elements) (2 * elements.length + 2 * k) 2 =
        some (Bytes.ofNat 2 (lowerHalf e).toNat) := by
  rw [packElements_eq_append heven]
  constructor
  · exact Bytes.slice?_append (slice?_flatMap_halves upperHalf h) _
  · have hback := Bytes.slice?_append_append
      (elements.flatMap fun e => Bytes.ofNat 2 (upperHalf e).toNat)
      (elements.flatMap fun e => Bytes.ofNat 2 (lowerHalf e).toNat) []
    rw [List.append_nil, length_flatMap_halves] at hback
    exact Bytes.slice?_trans hback (slice?_flatMap_halves lowerHalf h)

/-! ### Matrices -/

namespace Grid

variable {α : Type} {g g' : Grid Binary64} {bytes : Bytes}

theorem length_elements (g : Grid α) : g.elements.length = 16 := by
  simp [elements, List.length_flatMap]

/-- The elements come row by row. -/
theorem getElem?_elements (g : Grid α) (i j : Fin 4) :
    g.elements[4 * (i : Nat) + j]? = some g[i][j] := by
  rw [elements, getElem?_flatMap (fun row => row.length_toList) g.toList i j.isLt]
  simp

/-- Each place among sixteen is in one of the rows. -/
theorem exists_place {k : Nat} (hk : k < 16) : ∃ i j : Fin 4, k = 4 * (i : Nat) + j :=
  ⟨⟨k / 4, by omega⟩, ⟨k % 4, by omega⟩, by simp only; omega⟩

theorem mem_elements_iff {g : Grid α} {x : α} : x ∈ g.elements ↔ ∃ i j : Fin 4, x = g[i][j] := by
  rw [List.mem_iff_getElem?]
  constructor
  · rintro ⟨k, hk⟩
    have hlt : k < g.elements.length := (List.getElem?_eq_some_iff.mp hk).1
    obtain ⟨i, j, rfl⟩ := exists_place (hlt.trans_eq g.length_elements)
    rw [getElem?_elements] at hk
    exact ⟨i, j, (Option.some.inj hk).symm⟩
  · rintro ⟨i, j, rfl⟩
    exact ⟨4 * (i : Nat) + j, getElem?_elements g i j⟩

theorem pack_eq_ok_iff :
    g.pack = .ok bytes ↔ ∃ patterns : List (BitVec 32),
      g.elements.mapM FixedPoint.ofBinary64 = .ok patterns ∧ bytes = packElements patterns := by
  rw [pack]
  cases g.elements.mapM FixedPoint.ofBinary64 <;> simp [Except.map, eq_comm]

/-- A matrix is refused exactly if one of its elements is. -/
theorem exists_pack_eq_error_iff :
    (∃ fault, g.pack = .error fault) ↔
      ∃ i j : Fin 4, ∃ fault, FixedPoint.ofBinary64 g[i][j] = .error fault := by
  have hpack : (∃ fault, g.pack = .error fault) ↔
      ∃ fault, g.elements.mapM FixedPoint.ofBinary64 = .error fault := by
    rw [pack]
    cases g.elements.mapM FixedPoint.ofBinary64 <;> simp [Except.map]
  rw [hpack, exists_mapM_eq_error_iff]
  simp only [mem_elements_iff]
  constructor
  · rintro ⟨_, ⟨i, j, rfl⟩, hfault⟩
    exact ⟨i, j, hfault⟩
  · rintro ⟨i, j, hfault⟩
    exact ⟨_, ⟨i, j, rfl⟩, hfault⟩

/-- The patterns of a matrix are as many as its elements. -/
theorem length_patterns {patterns : List (BitVec 32)}
    (h : g.elements.mapM FixedPoint.ofBinary64 = .ok patterns) : patterns.length = 16 :=
  (mapM_eq_ok_iff.mp h).length_eq.symm.trans g.length_elements

/-- A packed matrix has sixteen elements of four bytes. -/
theorem length_of_pack (h : g.pack = .ok bytes) : bytes.length = 64 := by
  obtain ⟨patterns, hpatterns, rfl⟩ := pack_eq_ok_iff.mp h
  have hlength : patterns.length = 16 := length_patterns hpatterns
  rw [length_packElements (hlength ▸ by decide), hlength]

/-- The pattern of an element of a packed matrix, and its halves in the bytes. -/
theorem exists_pattern_of_pack (h : g.pack = .ok bytes) (i j : Fin 4) :
    ∃ (pattern : BitVec 32) (upper lower : Bytes),
      FixedPoint.ofBinary64 g[i][j] = .ok pattern ∧
      Bytes.slice? bytes (2 * (4 * i + j)) 2 = some upper ∧
      Bytes.slice? bytes (0x20 + 2 * (4 * i + j)) 2 = some lower ∧
      upper ++ lower = Bytes.ofNat 4 pattern.toNat := by
  obtain ⟨patterns, hpatterns, rfl⟩ := pack_eq_ok_iff.mp h
  have hlength : patterns.length = 16 := length_patterns hpatterns
  obtain ⟨pattern, hpattern⟩ : ∃ pattern, patterns[4 * (i : Nat) + j]? = some pattern :=
    ⟨_, List.getElem?_eq_getElem (by omega)⟩
  obtain ⟨hupper, hlower⟩ := slice?_packElements (hlength ▸ by decide) hpattern
  rw [hlength] at hlower
  refine ⟨pattern, _, _, ?_, hupper, hlower, ?_⟩
  · obtain ⟨hplace, hget⟩ := List.getElem?_eq_some_iff.mp (getElem?_elements g i j)
    obtain ⟨hplace', hget'⟩ := List.getElem?_eq_some_iff.mp hpattern
    have hforall := (List.forall₂_iff_get.mp (mapM_eq_ok_iff.mp hpatterns)).2
    simpa [hget, hget'] using hforall (4 * (i : Nat) + j) hplace hplace'
  · rw [← ofNat_append_halves, upperHalf_append_lowerHalf]

/-- Nothing but the patterns of its elements matters for how a matrix is packed. -/
theorem pack_congr
    (h : ∀ i j : Fin 4, FixedPoint.ofBinary64 g[i][j] = FixedPoint.ofBinary64 g'[i][j]) :
    g.pack = g'.pack := by
  have hmap : g.elements.map FixedPoint.ofBinary64 = g'.elements.map FixedPoint.ofBinary64 := by
    refine List.ext_getElem? fun k => ?_
    rw [List.getElem?_map, List.getElem?_map]
    rcases Nat.lt_or_ge k 16 with hk | hk
    · obtain ⟨i, j, rfl⟩ := exists_place hk
      rw [getElem?_elements, getElem?_elements, Option.map_some, Option.map_some, h i j]
    · rw [List.getElem?_eq_none (by rwa [length_elements]),
        List.getElem?_eq_none (by rwa [length_elements])]
  have hmapM : ∀ xs : List Binary64,
      xs.mapM FixedPoint.ofBinary64 = (xs.map FixedPoint.ofBinary64).mapM id := by
    intro xs
    rw [List.mapM_map]
    rfl
  rw [pack, pack, hmapM, hmap, ← hmapM]

/-- **Packing loses no bit and moves no element.** A matrix is refused exactly if an element has no
pattern. Otherwise it becomes 64 bytes, and the upper and the lower half of the pattern of each
element are where the layout says. So two matrices become the same bytes exactly if their patterns
are the same. -/
theorem pack_halves (g g' : Grid Binary64) :
    ((∃ fault, g.pack = .error fault) ↔
      ∃ i j : Fin 4, ∃ fault, FixedPoint.ofBinary64 g[i][j] = .error fault) ∧
    (∀ bytes, g.pack = .ok bytes → bytes.length = 64 ∧
      ∀ i j : Fin 4, ∃ (pattern : BitVec 32) (upper lower : Bytes),
        FixedPoint.ofBinary64 g[i][j] = .ok pattern ∧
        Bytes.slice? bytes (2 * (4 * i + j)) 2 = some upper ∧
        Bytes.slice? bytes (0x20 + 2 * (4 * i + j)) 2 = some lower ∧
        upper ++ lower = Bytes.ofNat 4 pattern.toNat) ∧
    ((∃ bytes, g.pack = .ok bytes ∧ g'.pack = .ok bytes) ↔
      ∀ i j : Fin 4, ∃ pattern, FixedPoint.ofBinary64 g[i][j] = .ok pattern ∧
        FixedPoint.ofBinary64 g'[i][j] = .ok pattern) := by
  refine ⟨exists_pack_eq_error_iff,
    fun bytes h => ⟨length_of_pack h, exists_pattern_of_pack h⟩, ?_⟩
  constructor
  · rintro ⟨bytes, h, h'⟩ i j
    obtain ⟨pattern, upper, lower, hpattern, hupper, hlower, hboth⟩ :=
      exists_pattern_of_pack h i j
    obtain ⟨pattern', upper', lower', hpattern', hupper', hlower', hboth'⟩ :=
      exists_pattern_of_pack h' i j
    obtain rfl : upper = upper' := Option.some.inj (hupper.symm.trans hupper')
    obtain rfl : lower = lower' := Option.some.inj (hlower.symm.trans hlower')
    have hsame : pattern = pattern' :=
      BitVec.eq_of_toNat_eq (Bytes.ofNat_inj pattern.isLt pattern'.isLt (hboth.symm.trans hboth'))
    exact ⟨pattern, hpattern, hsame ▸ hpattern'⟩
  · intro hpatterns
    have hequal : g.pack = g'.pack := by
      refine pack_congr fun i j => ?_
      obtain ⟨pattern, hpattern, hpattern'⟩ := hpatterns i j
      rw [hpattern, hpattern']
    cases hpack : g.pack with
    | ok bytes => exact ⟨bytes, rfl, hequal ▸ hpack⟩
    | error fault =>
      obtain ⟨i, j, _, hfault⟩ := exists_pack_eq_error_iff.mp ⟨fault, hpack⟩
      obtain ⟨pattern, hpattern, -⟩ := hpatterns i j
      rw [hpattern] at hfault
      cases hfault

/-- A half, minus three halves, and the patterns right below zero and right below one stand side by
side, and one in the last place. -/
def signedGrid : Grid Binary64 :=
  #v[#v[.ofBits 0x3FE0000000000000, .ofBits 0xBFF8000000000000,
       .ofBits 0xBEF0000000000000, .ofBits 0x3FEFFFE000000000],
     #v[.ofBits 0, .ofBits 0, .ofBits 0, .ofBits 0],
     #v[.ofBits 0, .ofBits 0, .ofBits 0, .ofBits 0],
     #v[.ofBits 0, .ofBits 0, .ofBits 0, .ofBits 0x3FF0000000000000]]

/-- The bytes of `signedGrid`. -/
def signedBytes : Bytes :=
  [0x00, 0x00, 0xFF, 0xFE, 0xFF, 0xFF, 0x00, 0x00] ++ List.replicate 22 0x00 ++ [0x00, 0x01] ++
    [0x80, 0x00, 0x80, 0x00, 0xFF, 0xFF, 0xFF, 0xFF] ++ List.replicate 24 0x00

theorem pack_halves_signed :
    signedGrid.pack = .ok signedBytes ∧
      (∃ upper lower, Bytes.slice? signedBytes 2 2 = some upper ∧
        Bytes.slice? signedBytes 0x22 2 = some lower ∧ upper ++ lower = [0xFF, 0xFE, 0x80, 0x00]) ∧
      ∃ fault, pack (signedGrid.set 1 #v[.ofBits 0, .nan, .ofBits 0, .ofBits 0]) = .error fault := by
  have hpack : signedGrid.pack = .ok signedBytes := by decide +kernel
  have hpattern : FixedPoint.ofBinary64 signedGrid[(0 : Fin 4)][(1 : Fin 4)] = .ok 0xFFFE8000 := by
    decide +kernel
  obtain ⟨pattern, upper, lower, hfound, hupper, hlower, hboth⟩ :=
    ((pack_halves signedGrid signedGrid).2.1 signedBytes hpack).2 0 1
  obtain rfl : pattern = 0xFFFE8000 := Except.ok.inj (hfound.symm.trans hpattern)
  refine ⟨hpack, ⟨upper, lower, hupper, hlower, hboth.trans rfl⟩, ?_⟩
  exact (pack_halves _ signedGrid).1.mpr ⟨1, 1, _, rfl⟩

end Grid

end ModelPatch

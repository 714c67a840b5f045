import Mathlib
import ModelPatch.OrderedMap

/-!
# Maps from lists

A map that arises from a list of insertions, in terms of the list. Names stand where they first came
up, and their values are the last ones that were inserted.

Items of some other sort can be about names too. There is one map that records what they say, and it
is described without insertions: where a name stands and what its value is depends on the first and
on the last of the items that are about it.

## Main definitions

* `OrderedMap.update`: a map with another map added to it;
* `OrderedMap.Records`: a map has the names that some items are about, with the last values.

## Main results

* `OrderedMap.get?_eq_some_iff`: a name has the value with which it is listed;
* `OrderedMap.get?_foldl_insert`: after some insertions a name has the value of the last one that is
  about it, or else its old value;
* `OrderedMap.keys_ofList`: the names, in the order in which they first came up;
* `OrderedMap.get?_ofList`, `OrderedMap.get?_ofList_filterMap_iff`: a name has the value with which
  it was inserted last;
* `OrderedMap.entries_ofList`, `OrderedMap.get?_ofList_of_perm`: where no name comes up twice, the map
  is the list, and the order of the list matters to no name;
* `OrderedMap.keys_foldl_insert`: where the names stand after some insertions;
* `OrderedMap.ofList_append`: insertions one behind the other, as maps;
* `OrderedMap.records_iff`: there is one map that records what items say, and which one it is.
-/

namespace ModelPatch.OrderedMap

variable {α β : Type}

/-! ### Names and values -/

/-- No name hides another: each has the value with which it is listed. -/
theorem get?_eq_some_iff {m : OrderedMap α} {name : String} {value : α} :
    m.get? name = some value ↔ (name, value) ∈ m.entries := by
  constructor
  · intro h
    obtain ⟨front, back, hsplit, -⟩ := List.lookup_eq_some_iff.mp h
    rw [hsplit]
    exact List.mem_append_right _ List.mem_cons_self
  · intro h
    obtain ⟨front, back, hsplit⟩ := List.append_of_mem h
    have hnodup := m.nodup
    rw [hsplit, List.map_append, List.map_cons, List.nodup_append] at hnodup
    refine List.lookup_eq_some_iff.mpr ⟨front, back, hsplit, fun other hother => ?_⟩
    rw [bne_iff_ne]
    exact (hnodup.2.2 _ (List.mem_map_of_mem hother) _ List.mem_cons_self).symm

theorem mem_keys_iff {m : OrderedMap α} {name : String} :
    name ∈ m.keys ↔ ∃ value, m.get? name = some value := by
  simp [keys, get?_eq_some_iff]

theorem contains_iff {m : OrderedMap α} {name : String} :
    m.contains name = true ↔ name ∈ m.keys := by
  rw [contains, Option.isSome_iff_exists, mem_keys_iff]

theorem mem_values_iff {m : OrderedMap α} {value : α} :
    value ∈ m.values ↔ ∃ name, m.get? name = some value := by
  simp [values, get?_eq_some_iff]

theorem get?_mapValues (f : α → β) (m : OrderedMap α) (name : String) :
    (m.mapValues f).get? name = (m.get? name).map f := by
  ext value
  simp [Option.map_eq_some_iff, get?_eq_some_iff, mapValues]

/-! ### Insertions in order -/

/-- After some insertions a name has the value of the last one that is about it, or else its old
value. -/
theorem get?_foldl_insert (ps : List (String × α)) (m : OrderedMap α) (name : String) :
    (ps.foldl (fun m p => m.insert p.1 p.2) m).get? name =
      (ps.reverse.lookup name).or (m.get? name) := by
  induction ps using List.reverseRecOn with
  | nil => rfl
  | append_singleton ps p ih =>
    rw [List.foldl_append, List.foldl_cons, List.foldl_nil, get?_insert, ih, List.reverse_append,
      List.reverse_singleton, List.singleton_append, List.lookup_cons]
    by_cases h : name = p.1
    · rw [if_pos h, beq_iff_eq.mpr h, Option.some_or]
    · rw [if_neg h, beq_eq_false_iff_ne.mpr h]

theorem ofList_concat (ps : List (String × α)) (p : String × α) :
    ofList (ps ++ [p]) = (ofList ps).insert p.1 p.2 := by
  rw [ofList, List.foldl_append]
  rfl

/-- One name more comes last, unless it is there already. -/
theorem eraseDups_concat (names : List String) (last : String) :
    (names ++ [last]).eraseDups =
      if last ∈ names then names.eraseDups else names.eraseDups ++ [last] := by
  rw [List.eraseDups_append]
  split
  · next h => simp [List.removeAll, h]
  · next h => simp [List.removeAll, h, List.eraseDups_cons]

/-- Names stand in the order in which they first came up. -/
theorem keys_ofList (ps : List (String × α)) :
    (ofList ps).keys = (ps.map Prod.fst).eraseDups := by
  induction ps using List.reverseRecOn with
  | nil => rfl
  | append_singleton ps p ih =>
    rw [ofList_concat, keys_insert, ih, List.map_append, List.map_singleton, eraseDups_concat]
    simp only [List.mem_eraseDups]

/-- A name has the value with which it was inserted last. -/
theorem get?_ofList (ps : List (String × α)) (name : String) :
    (ofList ps).get? name = ps.reverse.lookup name := by
  rw [ofList, get?_foldl_insert, get?_empty, Option.or_none]

/-- A name has a value if no later insertion is about it. -/
theorem get?_ofList_eq_some_iff {ps : List (String × α)} {name : String} {value : α} :
    (ofList ps).get? name = some value ↔
      ∃ front back, ps = front ++ (name, value) :: back ∧ ∀ p ∈ back, p.1 ≠ name := by
  rw [get?_ofList, List.lookup_eq_some_iff]
  constructor
  · rintro ⟨back, front, hsplit, hback⟩
    refine ⟨front.reverse, back.reverse, ?_, fun p hp => ?_⟩
    · rw [← List.reverse_reverse ps, hsplit]
      simp
    · exact (bne_iff_ne.mp (hback p (List.mem_reverse.mp hp))).symm
  · rintro ⟨front, back, rfl, hback⟩
    refine ⟨back.reverse, front.reverse, by simp, fun p hp => ?_⟩
    exact bne_iff_ne.mpr (hback p (List.mem_reverse.mp hp)).symm

/-- What is inserted for the items of a list: a name has the value of the last item that is about
it. -/
theorem get?_ofList_filterMap_iff {items : List β} {f : β → Option (String × α)} {name : String}
    {value : α} :
    (ofList (items.filterMap f)).get? name = some value ↔
      ∃ front item back, items = front ++ item :: back ∧ f item = some (name, value) ∧
        ∀ later ∈ back, ∀ other, f later ≠ some (name, other) := by
  rw [get?_ofList_eq_some_iff]
  constructor
  · rintro ⟨front, back, hsplit, hback⟩
    obtain ⟨before, rest, rfl, -, hrest⟩ := List.filterMap_eq_append_iff.mp hsplit
    obtain ⟨between, item, behind, rfl, -, hitem, rfl⟩ := List.filterMap_eq_cons_iff.mp hrest
    refine ⟨before ++ between, item, behind, by simp, hitem, ?_⟩
    intro later hlater other hother
    exact hback (name, other) (List.mem_filterMap.mpr ⟨later, hlater, hother⟩) rfl
  · rintro ⟨front, item, back, rfl, hitem, hback⟩
    refine ⟨front.filterMap f, back.filterMap f, ?_, ?_⟩
    · rw [List.filterMap_append, List.filterMap_cons_some hitem]
    · rintro ⟨key, other⟩ hmem rfl
      obtain ⟨later, hlater, hother⟩ := List.mem_filterMap.mp hmem
      exact hback later hlater other hother

/-- Where no name comes up twice, the map is the list. -/
theorem entries_ofList {ps : List (String × α)} (h : (ps.map Prod.fst).Nodup) :
    (ofList ps).entries = ps := by
  induction ps using List.reverseRecOn with
  | nil => rfl
  | append_singleton ps p ih =>
    rw [List.map_append, List.nodup_append] at h
    have hnew : (ofList ps).get? p.1 = none := by
      rw [get?_ofList, List.lookup_eq_none_iff]
      intro q hq
      rw [bne_iff_ne]
      exact (h.2.2 q.1 (List.mem_map_of_mem (List.mem_reverse.mp hq)) p.1 (by simp)).symm
    rw [ofList_concat, entries_insert hnew, ih h.1]

/-- Where no name comes up twice, it does not matter in which order the names are inserted. -/
theorem get?_ofList_of_perm {ps qs : List (String × α)} (h : ps.Perm qs)
    (hnodup : (ps.map Prod.fst).Nodup) (name : String) :
    (ofList ps).get? name = (ofList qs).get? name := by
  have hnodup' : (qs.map Prod.fst).Nodup := (h.map Prod.fst).nodup_iff.mp hnodup
  ext value
  rw [get?_eq_some_iff, get?_eq_some_iff, entries_ofList hnodup, entries_ofList hnodup', h.mem_iff]

/-- A map arises from the insertion of its own entries. -/
theorem ofList_entries (m : OrderedMap α) : ofList m.entries = m := by
  have hentries : (ofList m.entries).entries = m.entries := entries_ofList m.nodup
  cases h : ofList m.entries
  cases m
  simp_all

/-- After some insertions, the old names stand first and then the new ones, in the order in which
they came up. -/
theorem keys_foldl_insert (ps : List (String × α)) (m : OrderedMap α) :
    (ps.foldl (fun m p => m.insert p.1 p.2) m).keys = (m.keys ++ ps.map Prod.fst).eraseDups := by
  have hofList : ps.foldl (fun m p => m.insert p.1 p.2) m = ofList (m.entries ++ ps) := by
    rw [ofList, List.foldl_append]
    change _ = ps.foldl _ (ofList m.entries)
    rw [ofList_entries]
  rw [hofList, keys_ofList, List.map_append]
  rfl

/-- Names that are only given other values stay where they are. -/
theorem keys_foldl_insert_of_mem {ps : List (String × α)} {m : OrderedMap α}
    (h : ∀ p ∈ ps, p.1 ∈ m.keys) : (ps.foldl (fun m p => m.insert p.1 p.2) m).keys = m.keys := by
  induction ps using List.reverseRecOn with
  | nil => rfl
  | append_singleton ps p ih =>
    have hfront : (ps.foldl (fun m p => m.insert p.1 p.2) m).keys = m.keys :=
      ih fun q hq => h q (List.mem_append_left _ hq)
    have hlast : p.1 ∈ m.keys := h p (List.mem_append_right _ List.mem_cons_self)
    rw [List.foldl_append, List.foldl_cons, List.foldl_nil, keys_insert, hfront, if_pos hlast]

/-! ### Maps of the same names -/

theorem eq_of_entries_eq {m m' : OrderedMap α} (h : m.entries = m'.entries) : m = m' := by
  cases m
  cases m'
  simp_all

/-- A map is its names, in order, and their values. -/
theorem eq_of_keys_eq {m m' : OrderedMap α} (hkeys : m.keys = m'.keys)
    (hvalues : ∀ name, m.get? name = m'.get? name) : m = m' := by
  have hentries : ∀ m : OrderedMap α,
      m.entries.map some = m.keys.map fun name => (m.get? name).map (Prod.mk name) := by
    intro m
    rw [keys, List.map_map]
    refine List.map_congr_left fun entry hentry => ?_
    have hvalue : m.get? entry.1 = some entry.2 := get?_eq_some_iff.mpr hentry
    rw [Function.comp_apply, hvalue]
    rfl
  have hsome : m.entries.map some = m'.entries.map some := by
    rw [hentries, hentries, hkeys]
    simp only [hvalues]
  exact eq_of_entries_eq (List.map_injective_iff.mpr (Option.some_injective _) hsome)

/-! ### One map after another -/

/-- The map with the names of another map added to it, and with the values of these. -/
def update (m m' : OrderedMap α) : OrderedMap α :=
  m'.entries.foldl (fun m p => m.insert p.1 p.2) m

theorem get?_update (m m' : OrderedMap α) (name : String) :
    (m.update m').get? name = (m'.get? name).or (m.get? name) := by
  rw [update, get?_foldl_insert, ← get?_ofList, ofList_entries]

theorem keys_update (m m' : OrderedMap α) : (m.update m').keys = (m.keys ++ m'.keys).eraseDups :=
  keys_foldl_insert m'.entries m

/-- One more insertion into the other map is one more insertion. -/
theorem update_insert (m m' : OrderedMap α) (name : String) (value : α) :
    m.update (m'.insert name value) = (m.update m').insert name value := by
  refine eq_of_keys_eq ?_ fun other => ?_
  · rw [keys_insert, keys_update, keys_update, keys_insert]
    simp only [List.mem_eraseDups]
    split
    · next hknown => rw [if_pos (List.mem_append_right _ hknown)]
    · rw [← List.append_assoc, eraseDups_concat]
  · rw [get?_insert, get?_update, get?_update, get?_insert]
    split
    · rfl
    · rfl

/-- **Insertions one behind the other**: the map of the second ones is added to that of the
first. -/
theorem ofList_append (ps qs : List (String × α)) :
    ofList (ps ++ qs) = (ofList ps).update (ofList qs) := by
  induction qs using List.reverseRecOn with
  | nil => rw [List.append_nil]; rfl
  | append_singleton qs q ih =>
    rw [← List.append_assoc, ofList_concat, ofList_concat, update_insert, ih]

/-! ### What items say -/

/-- Some item is about a name, and no item up to there is about another. -/
def ComesFirst (items : List β) (P : β → String → α → Prop) (name other : String) : Prop :=
  ∃ front item back, items = front ++ item :: back ∧ (∃ value, P item name value) ∧
    ∀ earlier ∈ front ++ [item], ∀ value, ¬ P earlier other value

/-- The map records what items say about names: a name has the value on the last item that is about
it, and stands where the first one is. -/
structure Records (m : OrderedMap α) (items : List β) (P : β → String → α → Prop) : Prop where
  /-- The last item about a name decides. -/
  last : ∀ name value, m.get? name = some value ↔
    ∃ front item back, items = front ++ item :: back ∧ P item name value ∧
      ∀ later ∈ back, ∀ other, ¬ P later name other
  /-- Names stand in the order in which they first came up. -/
  order : m.keys.Pairwise (ComesFirst items P)

variable {items : List β} {P : β → String → α → Prop} {f : β → Option (String × α)}

/-- Two names cannot both come first. -/
theorem ComesFirst.asymm {name other : String} (h : ComesFirst items P name other) :
    ¬ ComesFirst items P other name := by
  rintro ⟨front', item', back', hsplit', ⟨value', hitem'⟩, hbefore'⟩
  obtain ⟨front, item, back, hsplit, ⟨value, hitem⟩, hbefore⟩ := h
  have hin : front ++ [item] <+: items := ⟨back, by simp [hsplit]⟩
  have hin' : front' ++ [item'] <+: items := ⟨back', by simp [hsplit']⟩
  rcases List.prefix_or_prefix_of_prefix hin hin' with hup | hup
  · exact hbefore' item (hup.mem List.mem_concat_self) value hitem
  · exact hbefore item' (hup.mem List.mem_concat_self) value' hitem'

/-- There is only one map that records what items say. -/
theorem Records.unique {m m' : OrderedMap α} (h : m.Records items P) (h' : m'.Records items P) :
    m = m' := by
  have hvalues : ∀ name, m.get? name = m'.get? name := fun name => by
    ext value
    rw [h.last, h'.last]
  have hperm : m.keys.Perm m'.keys := by
    refine (List.perm_ext_iff_of_nodup m.nodup m'.nodup).mpr fun name => ?_
    change name ∈ m.keys ↔ name ∈ m'.keys
    rw [mem_keys_iff, mem_keys_iff, hvalues]
  refine eq_of_keys_eq (hperm.eq_of_pairwise ?_ h.order h'.order) hvalues
  intro name other _ _ hfirst hfirst'
  exact absurd hfirst' hfirst.asymm

theorem mem_map_fst_filterMap_iff
    (hf : ∀ item name value, P item name value ↔ f item = some (name, value)) {name : String} :
    name ∈ (items.filterMap f).map Prod.fst ↔ ∃ item ∈ items, ∃ value, P item name value := by
  simp only [List.mem_map, List.mem_filterMap, Prod.exists, exists_and_right, exists_eq_right, hf]
  exact ⟨fun ⟨value, item, hitem, h⟩ => ⟨item, hitem, value, h⟩,
    fun ⟨item, hitem, value, h⟩ => ⟨value, item, hitem, h⟩⟩

/-- Names stand in the order in which they first came up. -/
theorem pairwise_keys_ofList_filterMap
    (hf : ∀ item name value, P item name value ↔ f item = some (name, value)) :
    (ofList (items.filterMap f)).keys.Pairwise (ComesFirst items P) := by
  rw [keys_ofList]
  induction items using List.reverseRecOn with
  | nil => exact List.Pairwise.nil
  | append_singleton items last ih =>
    have hgrow : ((items.filterMap f).map Prod.fst).eraseDups.Pairwise
        (ComesFirst (items ++ [last]) P) := by
      refine ih.imp ?_
      rintro name other ⟨front, item, back, rfl, hitem, hbefore⟩
      exact ⟨front, item, back ++ [last], by simp, hitem, hbefore⟩
    rw [List.filterMap_append, List.map_append, List.filterMap_cons, List.filterMap_nil]
    cases hlast : f last with
    | none => simpa using hgrow
    | some p =>
      rw [List.map_singleton, eraseDups_concat]
      split
      · exact hgrow
      · next hnew =>
        -- The name of the last item is new, so all names that are there come before it.
        refine List.pairwise_append.mpr ⟨hgrow, List.pairwise_singleton _ _, ?_⟩
        intro name hname other hother
        obtain rfl := List.mem_singleton.mp hother
        rw [List.mem_eraseDups, mem_map_fst_filterMap_iff hf] at hname
        rw [mem_map_fst_filterMap_iff hf] at hnew
        obtain ⟨item, hitem, value, hvalue⟩ := hname
        obtain ⟨front, back, rfl⟩ := List.append_of_mem hitem
        refine ⟨front, item, back ++ [last], by simp, ⟨value, hvalue⟩, ?_⟩
        intro earlier hearlier other habout
        have hmem : earlier ∈ front ++ item :: back := by
          rw [List.mem_append, List.mem_singleton] at hearlier
          rcases hearlier with hfront | rfl
          · exact List.mem_append_left _ hfront
          · exact hitem
        exact hnew ⟨earlier, hmem, other, habout⟩

/-- No name comes up twice if no two items are about the same one. -/
theorem nodup_map_fst_filterMap_iff
    (hf : ∀ item name value, P item name value ↔ f item = some (name, value)) :
    ((items.filterMap f).map Prod.fst).Nodup ↔
      items.Pairwise fun item later => ∀ name value other, P item name value →
        ¬ P later name other := by
  rw [List.Nodup, List.pairwise_map, List.pairwise_filterMap]
  refine List.Pairwise.iff fun item later => ?_
  simp only [hf, Prod.forall]
  constructor
  · intro h name value other hitem hlater
    exact h name value hitem name other hlater rfl
  · rintro h name value hitem _ other hlater rfl
    exact h name value other hitem hlater

/-- The map that arises from inserting what items say is the one that records it. -/
theorem records_iff (hf : ∀ item name value, P item name value ↔ f item = some (name, value))
    {m : OrderedMap α} : m.Records items P ↔ m = ofList (items.filterMap f) := by
  have hofList : (ofList (items.filterMap f)).Records items P := by
    refine ⟨fun name value => ?_, pairwise_keys_ofList_filterMap hf⟩
    rw [get?_ofList_filterMap_iff]
    simp only [hf, ne_eq]
  constructor
  · intro h
    exact h.unique hofList
  · rintro rfl
    exact hofList

end ModelPatch.OrderedMap

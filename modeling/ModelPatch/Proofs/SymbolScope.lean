import Mathlib
import ModelPatch.Symbols.Sources

/-!
# Symbol tables that grow by labels

A table is assembled against a symbol table that grows: each group defines its label before its
calls are compiled. What such a growth can do is said once here. The table after some labels is
`withLabels`, and `Fresh` is what their definitions, none of which may redefine a name, leave
behind: the labels are new, and no two are alike. A name then means its label if it is one, and
what it meant before if it is none.

## Main definitions

* `SymbolTable.withLabels`: a symbol table with labels defined at addresses;
* `SymbolTable.Fresh`: labels that are new to a symbol table and differ from each other;
* `SymbolTable.GrowsTo`: one symbol table has all that another has.

## Main results

* `SymbolTable.define_eq_ok_iff`, `lookup_eq_ok_iff`, `resolve_eq_ok_iff`: when each step succeeds,
  and with what;
* `SymbolTable.get?_withLabels`: what a name means after fresh labels;
* `SymbolTable.Fresh.growsTo`: fresh labels change the meaning of no name;
* `SymbolTable.get?_placeholder_of_ofSources`: the placeholder of a build stands for its offset.
-/

namespace ModelPatch.SymbolTable

variable {t t' : SymbolTable} {name : String} {labels : List (String × Nat)}

/-! ### The steps -/

theorem define_eq_ok_iff {offset : Int} {location : Option Location} :
    (t.define name offset location).result = .ok t' ↔
      t.symbols.get? name = none ∧
        t' = { t with symbols := t.symbols.insert name (.resolved offset) } := by
  rw [define]
  cases h : t.symbols.get? name with
  | none => simp [OrderedMap.contains, h, eq_comm]
  | some symbol =>
    rw [if_pos (by rw [OrderedMap.contains, h]; rfl), Build.result_bind_eq_ok_iff]
    simp

theorem lookup_eq_ok_iff {symbol : Symbol} :
    (t.lookup name).result = .ok symbol ↔ t.symbols.get? name = some symbol := by
  cases h : t.symbols.get? name <;> simp [lookup, h]

/-- A name is resolved by its own offset, or by that of the placeholder if it is external. -/
theorem resolve_eq_ok_iff {offset : Int} :
    (t.resolve name).result = .ok offset ↔
      t.symbols.get? name = some (.resolved offset) ∨
        t.symbols.get? name = some .external ∧
          t.symbols.get? t.placeholder = some (.resolved offset) := by
  rw [resolve, Build.result_bind_eq_ok_iff]
  constructor
  · rintro ⟨symbol, hname, hrest⟩
    rw [lookup_eq_ok_iff] at hname
    cases symbol with
    | resolved o =>
      obtain rfl : o = offset := by simpa using hrest
      exact .inl hname
    | external =>
      simp only [Build.result_bind_eq_ok_iff, Build.result_note, lookup_eq_ok_iff] at hrest
      obtain ⟨-, -, symbol, hplaceholder, hrest⟩ := hrest
      cases symbol with
      | resolved o =>
        obtain rfl : o = offset := by simpa using hrest
        exact .inr ⟨hname, hplaceholder⟩
      | external => simp at hrest
  · rintro (hname | ⟨hname, hplaceholder⟩)
    · exact ⟨.resolved offset, lookup_eq_ok_iff.mpr hname, rfl⟩
    · refine ⟨.external, lookup_eq_ok_iff.mpr hname, ?_⟩
      rw [Build.result_bind_eq_ok_iff]
      refine ⟨(), rfl, ?_⟩
      rw [Build.result_bind_eq_ok_iff]
      exact ⟨.resolved offset, lookup_eq_ok_iff.mpr hplaceholder, rfl⟩

/-! ### Labels -/

/-- The symbol table with labels defined at addresses, in order. -/
def withLabels (t : SymbolTable) (labels : List (String × Nat)) : SymbolTable :=
  { t with symbols := labels.foldl (fun m l => m.insert l.1 (.resolved l.2)) t.symbols }

@[simp] theorem placeholder_withLabels (t : SymbolTable) (labels : List (String × Nat)) :
    (t.withLabels labels).placeholder = t.placeholder := rfl

theorem withLabels_append (t : SymbolTable) (first second : List (String × Nat)) :
    t.withLabels (first ++ second) = (t.withLabels first).withLabels second := by
  simp only [withLabels, List.foldl_append]

theorem get?_withLabels_singleton (t : SymbolTable) (label : String) (address : Nat)
    (name : String) :
    (t.withLabels [(label, address)]).symbols.get? name =
      if name = label then some (.resolved address) else t.symbols.get? name :=
  OrderedMap.get?_insert t.symbols label name (.resolved address)

theorem withLabels_cons (t : SymbolTable) (label : String × Nat) (labels : List (String × Nat)) :
    t.withLabels (label :: labels) = (t.withLabels [label]).withLabels labels := rfl

/-- A name that is no label means what it meant before, whether the labels are fresh or not. -/
theorem get?_withLabels_of_not_mem (h : name ∉ labels.map Prod.fst) :
    (t.withLabels labels).symbols.get? name = t.symbols.get? name := by
  induction labels generalizing t with
  | nil => rfl
  | cons label rest ih =>
    rw [List.map_cons, List.mem_cons, not_or] at h
    rw [withLabels_cons, ih h.2, get?_withLabels_singleton, if_neg h.1]

/-- Labels that are new to a symbol table and differ from each other. -/
structure Fresh (t : SymbolTable) (labels : List (String × Nat)) : Prop where
  /-- No two labels are alike. -/
  nodup : (labels.map Prod.fst).Nodup
  /-- No label is a name of the table. -/
  new : ∀ label ∈ labels, t.symbols.get? label.1 = none

theorem fresh_nil (t : SymbolTable) : Fresh t [] :=
  ⟨List.nodup_nil, by simp⟩

/-- One label more, in front: the others must be fresh after it. -/
theorem fresh_cons {label : String × Nat} (hnew : t.symbols.get? label.1 = none)
    (hrest : Fresh (t.withLabels [label]) labels) : Fresh t (label :: labels) := by
  have hlabel : ∀ other ∈ labels, other.1 ≠ label.1 ∧ t.symbols.get? other.1 = none := by
    intro other hother
    have h := hrest.new other hother
    rw [get?_withLabels_singleton] at h
    split at h
    · cases h
    · next hne => exact ⟨hne, h⟩
  refine ⟨?_, ?_⟩
  · rw [List.map_cons, List.nodup_cons]
    refine ⟨fun hmem => ?_, hrest.nodup⟩
    obtain ⟨other, hother, heq⟩ := List.mem_map.mp hmem
    exact (hlabel other hother).1 heq
  · intro other hother
    rcases List.mem_cons.mp hother with rfl | hother
    · exact hnew
    · exact (hlabel other hother).2

/-- The first of fresh labels can be defined, and the others are fresh after it. -/
theorem Fresh.tail {label : String × Nat} (h : Fresh t (label :: labels)) :
    t.symbols.get? label.1 = none ∧ Fresh (t.withLabels [label]) labels := by
  obtain ⟨hlabel, hnodup⟩ := List.nodup_cons.mp h.nodup
  refine ⟨h.new label List.mem_cons_self, hnodup, ?_⟩
  intro other hother
  have hne : other.1 ≠ label.1 := by
    intro heq
    exact hlabel (List.mem_map.mpr ⟨other, hother, heq⟩)
  rw [get?_withLabels_singleton, if_neg hne]
  exact h.new other (List.mem_cons_of_mem _ hother)

theorem Fresh.sublist {some : List (String × Nat)} (h : Fresh t labels)
    (hsub : some.Sublist labels) : Fresh t some :=
  ⟨h.nodup.sublist (hsub.map Prod.fst), fun label hlabel => h.new label (hsub.subset hlabel)⟩

/-- No label hides another: each is looked up where it stands. -/
theorem Fresh.lookup_of_mem {address : Nat} (h : Fresh t labels) (hmem : (name, address) ∈ labels) :
    labels.lookup name = some address := by
  obtain ⟨front, back, rfl⟩ := List.append_of_mem hmem
  refine List.lookup_eq_some_iff.mpr ⟨front, back, rfl, fun other hother => ?_⟩
  have hnodup := h.nodup
  rw [List.map_append, List.map_cons, List.nodup_append] at hnodup
  rw [bne_iff_ne]
  exact (hnodup.2.2 _ (List.mem_map_of_mem hother) _ List.mem_cons_self).symm

/-- **What a name means after fresh labels**: its label if it is one, and otherwise what it meant
before. -/
theorem get?_withLabels (h : Fresh t labels) (name : String) :
    (t.withLabels labels).symbols.get? name =
      match labels.lookup name with
      | some address => some (.resolved address)
      | none => t.symbols.get? name := by
  induction labels generalizing t with
  | nil => rfl
  | cons label rest ih =>
    obtain ⟨key, address⟩ := label
    have hne : ∀ other ∈ rest, other.1 ≠ key := fun other hother heq =>
      (List.nodup_cons.mp h.nodup).1 (List.mem_map.mpr ⟨other, hother, heq⟩)
    obtain ⟨-, hrest⟩ := h.tail
    rw [withLabels_cons, ih hrest, List.lookup_cons, get?_withLabels_singleton]
    by_cases hname : name = key
    · have hnone : rest.lookup name = none := by
        rw [List.lookup_eq_none_iff]
        rintro other hother
        rw [hname, bne_iff_ne]
        exact (hne other hother).symm
      simp [hname ▸ hnone, hname]
    · rw [if_neg hname, beq_eq_false_iff_ne.mpr hname]

/-- Fresh labels come behind the names of the table, in their order. -/
theorem entries_withLabels (h : Fresh t labels) :
    (t.withLabels labels).symbols.entries =
      t.symbols.entries ++ labels.map fun label => (label.1, .resolved label.2) := by
  induction labels generalizing t with
  | nil => rw [List.map_nil, List.append_nil]; rfl
  | cons label rest ih =>
    obtain ⟨hnew, hrest⟩ := h.tail
    have hfirst : (t.withLabels [label]).symbols.entries =
        t.symbols.entries ++ [(label.1, .resolved label.2)] := OrderedMap.entries_insert hnew
    rw [withLabels_cons, ih hrest, hfirst, List.map_cons, List.append_assoc, List.singleton_append]

/-! ### Growth -/

/-- The names of one symbol table mean the same in another, which has the same placeholder and may
have more names. -/
structure GrowsTo (t t' : SymbolTable) : Prop where
  /-- The placeholder has the same name. -/
  placeholder : t'.placeholder = t.placeholder
  /-- A name that is defined keeps its symbol. -/
  get? : ∀ name symbol, t.symbols.get? name = some symbol → t'.symbols.get? name = some symbol

/-- A symbol table grows by fresh labels. -/
theorem Fresh.growsTo (h : Fresh t labels) : t.GrowsTo (t.withLabels labels) := by
  refine ⟨rfl, ?_⟩
  intro name symbol hname
  rw [get?_withLabels h]
  cases hlookup : labels.lookup name with
  | none => exact hname
  | some address =>
    obtain ⟨front, back, rfl, -⟩ := List.lookup_eq_some_iff.mp hlookup
    have hnew := h.new (name, address) (List.mem_append_right _ List.mem_cons_self)
    rw [hnew] at hname
    cases hname

/-- An external name stays external, so growth changes nothing about what falls back to the
placeholder. -/
theorem GrowsTo.resolve {offset : Int} (h : t.GrowsTo t')
    (hname : (t.resolve name).result = .ok offset) : (t'.resolve name).result = .ok offset := by
  rw [resolve_eq_ok_iff] at hname ⊢
  rcases hname with hown | ⟨hexternal, hplaceholder⟩
  · exact .inl (h.get? _ _ hown)
  · refine .inr ⟨h.get? _ _ hexternal, ?_⟩
    rw [h.placeholder]
    exact h.get? _ _ hplaceholder

/-! ### The symbols of a build -/

theorem result_reportExternal (trailer : Trailer) (aliases : List (String × String)) :
    (reportExternal trailer aliases).result = .ok () := by
  induction aliases with
  | nil => rfl
  | cons pair rest ih =>
    obtain ⟨quoted, name⟩ := pair
    rw [reportExternal]
    split
    · exact Build.result_bind_eq_ok_iff.mpr ⟨(), rfl, ih⟩
    · exact ih

theorem ofSources_eq_ok_iff {d : Dictionary} {trailer : Trailer} {offset : Int}
    {placeholder : String} :
    (ofSources d trailer offset placeholder).result = .ok t ↔
      t = ⟨(resolveAliases d trailer (publishAliases d (ofLiterals d))).insert placeholder
        (.resolved offset), placeholder⟩ := by
  rw [ofSources, Build.result_bind_eq_ok_iff]
  simp [result_reportExternal, eq_comm]

/-- No sources are refused. -/
theorem exists_ofSources (d : Dictionary) (trailer : Trailer) (offset : Int)
    (placeholder : String) : ∃ t, (ofSources d trailer offset placeholder).result = .ok t :=
  ⟨_, ofSources_eq_ok_iff.mpr rfl⟩

/-- The placeholder of a build stands for its offset. -/
theorem get?_placeholder_of_ofSources {d : Dictionary} {trailer : Trailer} {offset : Int}
    {placeholder : String} (h : (ofSources d trailer offset placeholder).result = .ok t) :
    t.symbols.get? t.placeholder = some (.resolved offset) := by
  obtain rfl := ofSources_eq_ok_iff.mp h
  rw [OrderedMap.get?_insert, if_pos rfl]

end ModelPatch.SymbolTable

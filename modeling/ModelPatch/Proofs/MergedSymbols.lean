import Mathlib
import ModelPatch.Proofs.OrderedMaps
import ModelPatch.Proofs.SymbolScope

/-!
# The symbols of four sources

The literal entries of a dictionary, its bank aliases, the trailer of the asset and the placeholder
are merged by insertions, one source behind the other. So what a name means can be read off from the
last source backwards: it is the placeholder, or the trailer resolves it, or it is published as
external, or it is a literal entry.

The trailer speaks of quoted names, and the dictionary says under which name each of these is known.
`resolutions` carries the offsets of the trailer over to those names.

## Main definitions

* `SymbolTable.resolutions`: the names that the trailer resolves.

## Main results

* `SymbolTable.get?_ofSources`: what a name means before any label is defined;
* `SymbolTable.exists_get?_ofSources_iff`: which names are defined;
* `SymbolTable.get?_ofSources_literal`, `SymbolTable.get?_ofSources_alias`: what a name means that
  only one source is about.
-/

namespace ModelPatch.SymbolTable

variable {d : Dictionary} {trailer : Trailer} {symbols : OrderedMap Symbol} {name : String}
  {symbol : Symbol}

/-! ### The dictionary -/

theorem get?_ofLiterals (d : Dictionary) (name : String) :
    (ofLiterals d).get? name = (d.entries.get? name).map fun offset : Nat => .resolved offset :=
  OrderedMap.get?_mapValues _ d.entries name

/-- Publishing the bank aliases is inserting their names. -/
theorem publishAliases_eq_foldl (d : Dictionary) (symbols : OrderedMap Symbol) :
    publishAliases d symbols =
      (d.bankAliases.values.map fun name => (name, Symbol.external)).foldl
        (fun m p => m.insert p.1 p.2) symbols := by
  rw [publishAliases, List.foldl_map]

/-- A bank alias is external, whatever it was before. -/
theorem get?_publishAliases (d : Dictionary) (symbols : OrderedMap Symbol) (name : String) :
    (publishAliases d symbols).get? name =
      if name ∈ d.bankAliases.values then some .external else symbols.get? name := by
  rw [publishAliases]
  generalize d.bankAliases.values = names
  induction names using List.reverseRecOn with
  | nil => rfl
  | append_singleton names last ih =>
    rw [List.foldl_append, List.foldl_cons, List.foldl_nil, OrderedMap.get?_insert, ih]
    by_cases h : name = last
    · simp [h]
    · simp [h]

/-! ### The trailer -/

/-- The names that the trailer resolves, in its order. A name can come up more than once, because
two quoted names can be known under it. -/
def resolutions (d : Dictionary) (trailer : Trailer) : List (String × Symbol) :=
  trailer.entries.filterMap fun entry =>
    (d.bankAliases.get? entry.1).map fun name => (name, .resolved entry.2)

theorem mem_resolutions_iff :
    (name, symbol) ∈ resolutions d trailer ↔
      ∃ (quoted : String) (offset : Nat), trailer.get? quoted = some offset ∧
        d.bankAliases.get? quoted = some name ∧ symbol = .resolved offset := by
  simp only [resolutions, List.mem_filterMap, Option.map_eq_some_iff, Prod.mk.injEq, Prod.exists,
    OrderedMap.get?_eq_some_iff]
  constructor
  · rintro ⟨quoted, offset, hentry, _, hname, rfl, rfl⟩
    exact ⟨quoted, offset, hentry, hname, rfl⟩
  · rintro ⟨quoted, offset, hentry, hname, rfl⟩
    exact ⟨quoted, offset, hentry, name, hname, rfl, rfl⟩

/-- Resolving by the trailer is inserting the names that it resolves. -/
theorem resolveAliases_eq_foldl (d : Dictionary) (trailer : Trailer) (symbols : OrderedMap Symbol) :
    resolveAliases d trailer symbols =
      (resolutions d trailer).foldl (fun m p => m.insert p.1 p.2) symbols := by
  rw [resolutions, List.foldl_filterMap, resolveAliases]
  refine List.foldl_ext _ _ _ fun m entry _ => ?_
  cases d.bankAliases.get? entry.1 <;> rfl

/-- A name means what the trailer resolves it to, or else what it meant before. -/
theorem get?_resolveAliases (d : Dictionary) (trailer : Trailer) (symbols : OrderedMap Symbol)
    (name : String) :
    (resolveAliases d trailer symbols).get? name =
      ((resolutions d trailer).reverse.lookup name).or (symbols.get? name) := by
  rw [resolveAliases_eq_foldl, OrderedMap.get?_foldl_insert]

theorem mem_of_lookup_resolutions (h : (resolutions d trailer).reverse.lookup name = some symbol) :
    (name, symbol) ∈ resolutions d trailer := by
  obtain ⟨front, back, hsplit, -⟩ := List.lookup_eq_some_iff.mp h
  rw [← List.mem_reverse, hsplit]
  exact List.mem_append_right _ List.mem_cons_self

theorem not_mem_of_lookup_resolutions (h : (resolutions d trailer).reverse.lookup name = none) :
    (name, symbol) ∉ resolutions d trailer := by
  intro hmem
  have hne := List.lookup_eq_none_iff.mp h _ (List.mem_reverse.mpr hmem)
  simp at hne

/-- The trailer resolves no names but those of bank aliases. -/
theorem lookup_resolutions_of_not_mem (h : name ∉ d.bankAliases.values) :
    (resolutions d trailer).reverse.lookup name = none := by
  rw [Option.eq_none_iff_forall_ne_some]
  intro symbol hsymbol
  obtain ⟨quoted, -, -, hname, -⟩ := mem_resolutions_iff.mp (mem_of_lookup_resolutions hsymbol)
  exact h (OrderedMap.mem_values_iff.mpr ⟨quoted, hname⟩)

/-! ### All sources together -/

section

variable {t : SymbolTable} {offset : Int} {placeholder : String}

/-- **What a name means before any label is defined**: the last source that is about it decides. -/
theorem get?_ofSources (h : (ofSources d trailer offset placeholder).result = .ok t)
    (name : String) :
    t.symbols.get? name =
      if name = placeholder then some (.resolved offset)
      else ((resolutions d trailer).reverse.lookup name).or <|
        if name ∈ d.bankAliases.values then some .external
        else (d.entries.get? name).map fun offset : Nat => .resolved offset := by
  obtain rfl := ofSources_eq_ok_iff.mp h
  rw [OrderedMap.get?_insert, get?_resolveAliases, get?_publishAliases, get?_ofLiterals]

/-- The names that are defined: the placeholder, the names of the bank aliases that are kept, and
those of the literal entries. -/
theorem exists_get?_ofSources_iff (h : (ofSources d trailer offset placeholder).result = .ok t) :
    (∃ symbol, t.symbols.get? name = some symbol) ↔
      name = placeholder ∨ name ∈ d.bankAliases.values ∨
        ∃ offset, d.entries.get? name = some offset := by
  rw [get?_ofSources h]
  by_cases hplaceholder : name = placeholder
  · simp [hplaceholder]
  by_cases halias : name ∈ d.bankAliases.values
  · simp only [hplaceholder, halias, if_false, if_true, false_or, true_or, iff_true]
    cases (resolutions d trailer).reverse.lookup name with
    | some symbol => exact ⟨symbol, rfl⟩
    | none => exact ⟨.external, rfl⟩
  · simp [hplaceholder, halias, lookup_resolutions_of_not_mem halias]

/-- A literal entry stands, unless a bank alias or the placeholder has its name. -/
theorem get?_ofSources_literal (h : (ofSources d trailer offset placeholder).result = .ok t)
    (hplaceholder : name ≠ placeholder) (halias : name ∉ d.bankAliases.values) :
    t.symbols.get? name =
      (d.entries.get? name).map fun offset : Nat => .resolved offset := by
  have hlookup : (resolutions d trailer).reverse.lookup name = none :=
    lookup_resolutions_of_not_mem halias
  rw [get?_ofSources h, if_neg hplaceholder, hlookup, Option.none_or, if_neg halias]

/-- A bank alias whose name belongs to one quoted text only is what the trailer says about that
text, or external if it says nothing. -/
theorem get?_ofSources_alias {quoted : String}
    (h : (ofSources d trailer offset placeholder).result = .ok t)
    (hplaceholder : name ≠ placeholder) (hname : d.bankAliases.get? quoted = some name)
    (hsole : ∀ other, d.bankAliases.get? other = some name → other = quoted) :
    t.symbols.get? name =
      match trailer.get? quoted with
      | some offset => some (.resolved offset)
      | none => some .external := by
  have hmem : name ∈ d.bankAliases.values := OrderedMap.mem_values_iff.mpr ⟨quoted, hname⟩
  rw [get?_ofSources h, if_neg hplaceholder, if_pos hmem]
  cases hlookup : (resolutions d trailer).reverse.lookup name with
  | some symbol =>
    obtain ⟨other, found, hfound, hother, rfl⟩ :=
      mem_resolutions_iff.mp (mem_of_lookup_resolutions hlookup)
    obtain rfl := hsole other hother
    rw [hfound, Option.some_or]
  | none =>
    cases hfound : trailer.get? quoted with
    | none => rfl
    | some found =>
      have hresolved : (name, .resolved found) ∈ resolutions d trailer :=
        mem_resolutions_iff.mpr ⟨quoted, found, hfound, hname, rfl⟩
      exact absurd hresolved (not_mem_of_lookup_resolutions hlookup)

end

end ModelPatch.SymbolTable

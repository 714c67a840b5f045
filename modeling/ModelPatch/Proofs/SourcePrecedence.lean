import Mathlib
import ModelPatch.Proofs.MergedSymbols

/-!
# Which source wins

The four sources of a symbol table overlap freely. A bank alias can have the name of a literal entry
or of the placeholder, and several quoted texts can be known under one name, with a trailer that
holds some of them, in any order. Here it is said for every name which source it gets its meaning
from, and in which order the names are listed.

Only the trailer takes an argument. It is keyed by quoted texts and the symbols by names, so that
entries of the trailer that are far apart can be about one name, and then the last of them counts.
This has nothing to do with the order in which the dictionary gives the aliases. `lastKnown?` is
that entry.

The names are in the order in which the sources first bring them up, because an insertion does not
move a name that is there. The trailer brings up no name: it resolves only what the dictionary has
published before.

## Main definitions

* `SymbolTable.lastKnown?`: the last entry of the trailer that is known under a name.

## Main results

* `SymbolTable.lookup_resolutions`: that entry decides what the trailer resolves a name to;
* `SymbolTable.keys_ofSources`: the names, in order;
* `SymbolTable.source_precedence`: what each name means, and all names in order.
-/

namespace ModelPatch.SymbolTable

variable {d : Dictionary} {trailer : Trailer} {t : SymbolTable} {offset : Int}
  {placeholder : String}

/-! ### The trailer -/

/-- The last entry of the trailer, in its order, whose quoted name is known under `name`. -/
def lastKnown? (d : Dictionary) (trailer : Trailer) (name : String) : Option (String × Nat) :=
  (trailer.entries.filter fun entry => d.bankAliases.get? entry.1 = some name).getLast?

/-- **The last entry decides.** What the trailer resolves a name to is the offset of the last entry
that is known under it. -/
theorem lookup_resolutions (d : Dictionary) (trailer : Trailer) (name : String) :
    (resolutions d trailer).reverse.lookup name =
      (lastKnown? d trailer name).map fun entry => .resolved entry.2 := by
  rw [resolutions, lastKnown?]
  -- From the end of the list: an entry in front matters only where no later one is about the name.
  induction trailer.entries using List.reverseRecOn with
  | nil => rfl
  | append_singleton entries last ih =>
    rw [List.filterMap_append, List.filter_append, List.reverse_append]
    cases halias : d.bankAliases.get? last.1 with
    | none => simpa [halias] using ih
    | some known =>
      by_cases hname : known = name
      · simp [halias, hname]
      · have hname' : (name == known) = false := beq_eq_false_iff_ne.mpr fun h => hname h.symm
        simpa [halias, hname, hname', List.lookup_cons] using ih

/-- The trailer brings up no name of its own. -/
theorem mem_values_of_mem_resolutions {p : String × Symbol} (h : p ∈ resolutions d trailer) :
    p.1 ∈ d.bankAliases.values := by
  obtain ⟨quoted, -, -, hname, -⟩ := mem_resolutions_iff.mp h
  exact OrderedMap.mem_values_iff.mpr ⟨quoted, hname⟩

/-! ### The order of the names -/

theorem keys_ofLiterals (d : Dictionary) : (ofLiterals d).keys = d.entries.keys := by
  simp [ofLiterals, OrderedMap.keys, OrderedMap.mapValues]

theorem keys_publishAliases (d : Dictionary) (symbols : OrderedMap Symbol) :
    (publishAliases d symbols).keys = (symbols.keys ++ d.bankAliases.values).eraseDups := by
  rw [publishAliases_eq_foldl, OrderedMap.keys_foldl_insert, List.map_map]
  congr 2
  exact List.map_id _

/-- Names that are published are resolved where they stand. -/
theorem keys_resolveAliases {symbols : OrderedMap Symbol}
    (h : ∀ name ∈ d.bankAliases.values, name ∈ symbols.keys) :
    (resolveAliases d trailer symbols).keys = symbols.keys := by
  rw [resolveAliases_eq_foldl]
  refine OrderedMap.keys_foldl_insert_of_mem ?_
  intro p hp
  exact h p.1 (mem_values_of_mem_resolutions hp)

/-- **The names in order**: the literal entries, the bank aliases and the placeholder, each name
where it first comes up. -/
theorem keys_ofSources (h : (ofSources d trailer offset placeholder).result = .ok t) :
    t.symbols.keys = (d.entries.keys ++ d.bankAliases.values ++ [placeholder]).eraseDups := by
  obtain rfl := ofSources_eq_ok_iff.mp h
  have hpublished : (publishAliases d (ofLiterals d)).keys =
      (d.entries.keys ++ d.bankAliases.values).eraseDups := by
    rw [keys_publishAliases, keys_ofLiterals]
  have hresolved : (resolveAliases d trailer (publishAliases d (ofLiterals d))).keys =
      (d.entries.keys ++ d.bankAliases.values).eraseDups := by
    rw [keys_resolveAliases, hpublished]
    intro name hname
    rw [hpublished, List.mem_eraseDups]
    exact List.mem_append_right _ hname
  rw [OrderedMap.keys_insert, hresolved, OrderedMap.eraseDups_concat]
  simp only [List.mem_eraseDups]

/-! ### All sources -/

/-- **Later sources overrule earlier ones.** The symbol table of a dictionary, a trailer and a
placeholder always comes about, and a name means

* the offset of the placeholder, if it is its name;
* else the offset of the last entry of the trailer that is known under it, if there is one;
* else a bank object, if a bank alias has it;
* else the offset of the literal entry of that name, if there is one;

and otherwise it is undefined. The names are the literal ones, the bank names that are new and the
placeholder if that is new, in this order and without repetition. -/
theorem source_precedence (d : Dictionary) (trailer : Trailer) (offset : Int)
    (placeholder : String) :
    ∃ t, (ofSources d trailer offset placeholder).result = .ok t ∧
      t.placeholder = placeholder ∧
      (∀ name, (t.lookup name).result =
        if name = placeholder then .ok (.resolved offset)
        else match lastKnown? d trailer name with
          | some entry => .ok (.resolved entry.2)
          | none =>
            if name ∈ d.bankAliases.values then .ok .external
            else match d.entries.get? name with
              | some literal => .ok (.resolved literal)
              | none => .error (.refused ⟨.undefinedSymbol name, none⟩)) ∧
      t.symbols.keys = (d.entries.keys ++ d.bankAliases.values ++ [placeholder]).eraseDups ∧
      t.symbols.keys.Nodup := by
  obtain ⟨t, ht⟩ := exists_ofSources d trailer offset placeholder
  have hplaceholder : t.placeholder = placeholder := by
    rw [ofSources_eq_ok_iff.mp ht]
  refine ⟨t, ht, hplaceholder, ?_, keys_ofSources ht, t.symbols.nodup⟩
  intro name
  rw [lookup, get?_ofSources ht, lookup_resolutions]
  by_cases hname : name = placeholder
  · rw [if_pos hname, if_pos hname]
    rfl
  rw [if_neg hname, if_neg hname]
  cases lastKnown? d trailer name with
  | some entry => rfl
  | none =>
    rw [Option.map_none, Option.none_or]
    by_cases halias : name ∈ d.bankAliases.values
    · rw [if_pos halias, if_pos halias]
      rfl
    · rw [if_neg halias, if_neg halias]
      cases d.entries.get? name <;> rfl

end ModelPatch.SymbolTable

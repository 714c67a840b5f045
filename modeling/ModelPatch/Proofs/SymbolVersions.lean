import Mathlib
import ModelPatch.Proofs.OrderedMaps
import ModelPatch.Proofs.SymbolScope

/-!
# The versions of a symbol table

A definition leaves a symbol table as it is. It makes a new version of the table, or it is refused
because the name is taken, and then the version on which it was tried stays the newest. The pool of
a manifest tries one definition for each of its labels. Here any definitions are tried, in any
number, and what is said holds of every version that can come up.

Everything follows from what one attempt does to the list of entries: it adds one at the end, with a
name that is not yet there, or does nothing. So the entries of a version are those of the first
table with the accepted definitions behind them, nothing that a name has ever meant is lost, and the
placeholder keeps its offset. Because it has one, a name that is external can always be resolved.

## Main definitions

* `Attempt`: a definition that is tried;
* `SymbolTable.newest`: the newest version after some attempts;
* `SymbolTable.accepted`: the attempts that made a version;
* `SymbolTable.IsVersion`: what the versions of a table have in common.

## Main results

* `SymbolTable.result_attempt`: when an attempt is refused, and what it makes if it is not;
* `SymbolTable.IsVersion.next`: the next version is a version;
* `SymbolTable.isVersion_newest`: and so are all versions;
* `SymbolTable.result_resolve`: what a name resolves to where the placeholder has an offset;
* `SymbolTable.versions_of_sources`: all of this, for the symbols of a build.
-/

namespace ModelPatch

/-- A definition that is tried. -/
structure Attempt where
  /-- The name to be defined. -/
  name : String
  /-- The offset that it shall stand for. -/
  offset : Int
  /-- Where the definition stands, if it is known. -/
  location : Option Location := none
  deriving DecidableEq, Repr

/-- The entry that a definition makes. -/
def Attempt.entry (a : Attempt) : String × Symbol :=
  (a.name, .resolved a.offset)

namespace SymbolTable

variable {t v : SymbolTable} {a : Attempt} {added : List Attempt} {name : String} {offset : Int}

/-- What comes of an attempt. -/
def attempt (t : SymbolTable) (a : Attempt) : Build SymbolTable :=
  t.define a.name a.offset a.location

/-- The newest version after an attempt. One that is refused makes none. -/
def next (t : SymbolTable) (a : Attempt) : SymbolTable :=
  match (t.attempt a).result with
  | .ok made => made
  | .error _ => t

/-- The newest version after some attempts, each on the newest version at its time. -/
def newest (t : SymbolTable) (tried : List Attempt) : SymbolTable :=
  tried.foldl next t

/-- Those of some attempts that make a version. -/
def accepted (t : SymbolTable) : (tried : List Attempt) → List Attempt
  | [] => []
  | a :: rest =>
    match (t.attempt a).result with
    | .ok made => a :: made.accepted rest
    | .error _ => t.accepted rest

/-! ### One attempt -/

/-- **An attempt is refused exactly if its name is taken**, and makes one entry otherwise. -/
theorem result_attempt (t : SymbolTable) (a : Attempt) :
    (t.attempt a).result =
      if a.name ∈ t.symbols.keys then
        .error (.refused ⟨.duplicateSymbol a.name, a.location⟩)
      else
        .ok { t with symbols := t.symbols.insert a.name (.resolved a.offset) } := by
  rw [attempt, define]
  by_cases h : a.name ∈ t.symbols.keys
  · rw [if_pos h, if_pos (OrderedMap.contains_iff.mpr h), Build.result_bind]
    rfl
  · rw [if_neg h, if_neg (mt OrderedMap.contains_iff.mp h), Build.result_pure]

theorem next_of_mem (h : a.name ∈ t.symbols.keys) : t.next a = t := by
  rw [next, result_attempt, if_pos h]

theorem next_of_not_mem (h : a.name ∉ t.symbols.keys) :
    t.next a = { t with symbols := t.symbols.insert a.name (.resolved a.offset) } := by
  rw [next, result_attempt, if_neg h]

theorem accepted_singleton (t : SymbolTable) (a : Attempt) :
    t.accepted [a] = if a.name ∈ t.symbols.keys then [] else [a] := by
  rw [accepted, result_attempt]
  by_cases h : a.name ∈ t.symbols.keys
  · rw [if_pos h, if_pos h]
    rfl
  · rw [if_neg h, if_neg h]
    rfl

/-! ### Runs of attempts -/

theorem newest_append (t : SymbolTable) (first second : List Attempt) :
    t.newest (first ++ second) = (t.newest first).newest second :=
  List.foldl_append

theorem newest_concat (t : SymbolTable) (tried : List Attempt) (a : Attempt) :
    t.newest (tried ++ [a]) = (t.newest tried).next a :=
  newest_append t tried [a]

theorem accepted_concat (t : SymbolTable) (tried : List Attempt) (a : Attempt) :
    t.accepted (tried ++ [a]) = t.accepted tried ++ (t.newest tried).accepted [a] := by
  induction tried generalizing t with
  | nil => rfl
  | cons b rest ih =>
    have hnewest : t.newest (b :: rest) = (t.next b).newest rest := rfl
    rw [List.cons_append, accepted, accepted, hnewest, next]
    cases (t.attempt b).result with
    | ok made => exact congrArg (b :: ·) (ih made)
    | error e => exact ih t

/-! ### What the versions of a table have in common -/

/-- `v` is the table `t` with the definitions `added` behind its entries. -/
structure IsVersion (t : SymbolTable) (added : List Attempt) (v : SymbolTable) : Prop where
  /-- The entries of the table come first, and then those of the definitions. -/
  entries : v.symbols.entries = t.symbols.entries ++ added.map Attempt.entry
  /-- The placeholder has the same name. -/
  placeholder : v.placeholder = t.placeholder

/-- **One attempt.** After it the newest version has one definition more if it was accepted. -/
theorem IsVersion.next (h : IsVersion t added v) (a : Attempt) :
    IsVersion t (added ++ v.accepted [a]) (v.next a) := by
  rw [accepted_singleton]
  by_cases hname : a.name ∈ v.symbols.keys
  · rw [if_pos hname, List.append_nil, next_of_mem hname]
    exact h
  · have hnew : v.symbols.get? a.name = none := by
      rw [Option.eq_none_iff_forall_ne_some]
      intro symbol hsymbol
      exact hname (OrderedMap.mem_keys_iff.mpr ⟨symbol, hsymbol⟩)
    rw [if_neg hname, next_of_not_mem hname]
    refine ⟨?_, h.placeholder⟩
    show (v.symbols.insert a.name (.resolved a.offset)).entries = _
    rw [OrderedMap.entries_insert hnew, h.entries, List.append_assoc, List.map_append]
    rfl

/-- **All attempts.** Whatever was tried, the newest version has the accepted definitions behind the
entries of the first one. -/
theorem isVersion_newest (t : SymbolTable) (tried : List Attempt) :
    IsVersion t (t.accepted tried) (t.newest tried) := by
  induction tried using List.reverseRecOn with
  | nil => exact ⟨by rw [accepted, List.map_nil, List.append_nil]; rfl, rfl⟩
  | append_singleton tried a ih =>
    rw [accepted_concat, newest_concat]
    exact ih.next a

theorem IsVersion.keys (h : IsVersion t added v) :
    v.symbols.keys = t.symbols.keys ++ added.map Attempt.name := by
  rw [OrderedMap.keys, h.entries, List.map_append, List.map_map]
  rfl

/-- What a name means in a table it means in every version. -/
theorem IsVersion.growsTo (h : IsVersion t added v) : t.GrowsTo v := by
  refine ⟨h.placeholder, ?_⟩
  intro name symbol hname
  rw [OrderedMap.get?_eq_some_iff] at hname ⊢
  rw [h.entries]
  exact List.mem_append_left _ hname

theorem IsVersion.get?_of_mem (h : IsVersion t added v) (ha : a ∈ added) :
    v.symbols.get? a.name = some (.resolved a.offset) := by
  rw [OrderedMap.get?_eq_some_iff, h.entries]
  exact List.mem_append_right _ (List.mem_map_of_mem ha)

/-- A version grows into every later one. -/
theorem growsTo_newest {earlier tried : List Attempt} (h : earlier <+: tried) :
    (t.newest earlier).GrowsTo (t.newest tried) := by
  obtain ⟨later, rfl⟩ := h
  rw [newest_append]
  exact (isVersion_newest (t.newest earlier) later).growsTo

/-! ### Names and their offsets -/

/-- Where the placeholder has an offset, a name that is defined has one, and no other name does. -/
theorem result_resolve (h : t.symbols.get? t.placeholder = some (.resolved offset))
    (name : String) :
    (t.resolve name).result =
      match t.symbols.get? name with
      | some (.resolved own) => .ok own
      | some .external => .ok offset
      | none => .error (.refused ⟨.undefinedSymbol name, none⟩) := by
  cases hname : t.symbols.get? name with
  | none =>
    have hlookup : (t.lookup name).result = .error (.refused ⟨.undefinedSymbol name, none⟩) := by
      rw [lookup, hname]
      rfl
    rw [resolve, Build.result_bind, hlookup]
    rfl
  | some symbol =>
    cases symbol with
    | resolved own => exact resolve_eq_ok_iff.mpr (.inl hname)
    | external => exact resolve_eq_ok_iff.mpr (.inr ⟨hname, h⟩)

/-- **The versions of the symbols of a build.** Whatever has been tried on them:

* one more attempt is refused exactly if its name is defined, and then the newest version stays;
* the names are those of the sources and behind them those that were accepted, in order, and no
  name comes up twice;
* an accepted definition stands, and every version still has all that any earlier one had;
* the placeholder stands for its offset;
* a name is resolved exactly if it is defined, an external one to the offset of the placeholder, and
  one that is not is refused under its own name. -/
theorem versions_of_sources (d : Dictionary) (trailer : Trailer) (offset : Int)
    (placeholder : String) :
    ∃ t, (ofSources d trailer offset placeholder).result = .ok t ∧ ∀ tried : List Attempt,
      (∀ a : Attempt,
        (a.name ∈ (t.newest tried).symbols.keys →
          ((t.newest tried).attempt a).result =
              .error (.refused ⟨.duplicateSymbol a.name, a.location⟩) ∧
            t.newest (tried ++ [a]) = t.newest tried) ∧
        (a.name ∉ (t.newest tried).symbols.keys →
          ((t.newest tried).attempt a).result = .ok (t.newest (tried ++ [a])))) ∧
      (t.newest tried).symbols.keys = t.symbols.keys ++ (t.accepted tried).map Attempt.name ∧
      (t.newest tried).symbols.keys.Nodup ∧
      (∀ a ∈ t.accepted tried,
        (t.newest tried).symbols.get? a.name = some (.resolved a.offset)) ∧
      (∀ earlier, earlier <+: tried → ∀ name symbol,
        (t.newest earlier).symbols.get? name = some symbol →
          (t.newest tried).symbols.get? name = some symbol) ∧
      (t.newest tried).symbols.get? placeholder = some (.resolved offset) ∧
      ∀ name, ((t.newest tried).resolve name).result =
        match (t.newest tried).symbols.get? name with
        | some (.resolved own) => .ok own
        | some .external => .ok offset
        | none => .error (.refused ⟨.undefinedSymbol name, none⟩) := by
  obtain ⟨t, ht⟩ := exists_ofSources d trailer offset placeholder
  have hname : t.placeholder = placeholder := by
    rw [ofSources_eq_ok_iff.mp ht]
  refine ⟨t, ht, fun tried => ?_⟩
  have hversion := isVersion_newest t tried
  have hplaceholder : (t.newest tried).symbols.get? t.placeholder = some (.resolved offset) :=
    hversion.growsTo.get? _ _ (get?_placeholder_of_ofSources ht)
  refine ⟨fun a => ⟨fun ha => ⟨?_, ?_⟩, fun ha => ?_⟩, hversion.keys, OrderedMap.nodup _,
    fun a => hversion.get?_of_mem, fun earlier hearlier => (growsTo_newest hearlier).get?,
    ?_, ?_⟩
  · rw [result_attempt, if_pos ha]
  · rw [newest_concat, next_of_mem ha]
  · rw [newest_concat, next_of_not_mem ha, result_attempt, if_neg ha]
  · rw [← hname]
    exact hplaceholder
  · exact result_resolve (hversion.placeholder ▸ hplaceholder)

end SymbolTable

end ModelPatch

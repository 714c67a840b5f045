import Mathlib
import ModelPatch.Proofs.MentionedNames
import ModelPatch.Proofs.MergedSymbols
import ModelPatch.Proofs.PatchFrame

/-!
# The name of the placeholder

An external display list is redirected to the placeholder, whatever that is called. So two builds
that differ in nothing but the name of the placeholder cannot be told apart by their bytes or by
their refusals, as long as the manifest uses neither of the two names for something else. Their
symbols have the same values in the same places, and the one name stands where the other stood.

The two builds are compared step by step. They do the same until the symbols are merged. From there
on their symbol tables differ in one name, which the pool does not mention, so that what holds of
pools and the names they mention applies.

## Main definitions

* `Manifest.Uses`: a manifest uses a name;
* `SymbolTable.renamed`: symbols with one name replaced by another;
* `SymbolTable.SameButFor`, `Patch.SameButFor`: the same but for the name of the placeholder.

## Main results

* `SymbolTable.alike_ofSources`: the merged symbols are the same but for that name;
* `AliasTable.SameContents.symbols`: and so are the symbols of tables with the same labels;
* `Patch.same_but_for_placeholder`: two builds are the same but for that name.
-/

namespace ModelPatch

open Build

/-- A manifest uses a name: for a literal entry, for a bank alias or in its pool. -/
def Manifest.Uses (m : Manifest) (name : String) : Prop :=
  name ∈ m.dictionary.entries.keys ∨ name ∈ m.dictionary.bankAliases.values ∨
    name ∈ m.pool.mentioned

instance (m : Manifest) (name : String) : Decidable (m.Uses name) :=
  inferInstanceAs (Decidable (_ ∨ _ ∨ _))

/-! ### Symbols -/

namespace SymbolTable

variable {t t' : SymbolTable} {a b : String} {entries : List (String × Symbol)}

/-- Symbols in which the name `a` is replaced by the name `b`. -/
def renamed (a b : String) (entries : List (String × Symbol)) : List (String × Symbol) :=
  entries.map fun entry => (if entry.1 = a then b else entry.1, entry.2)

theorem renamed_append (a b : String) (front back : List (String × Symbol)) :
    renamed a b (front ++ back) = renamed a b front ++ renamed a b back :=
  List.map_append

theorem renamed_of_not_mem (h : a ∉ entries.map Prod.fst) : renamed a b entries = entries := by
  rw [renamed]
  conv_rhs => rw [← List.map_id entries]
  refine List.map_congr_left fun entry hentry => ?_
  have hne : entry.1 ≠ a := fun heq => h (List.mem_map.mpr ⟨entry, hentry, heq⟩)
  rw [if_neg hne, id]

/-- Two symbol tables are the same but for the name of the placeholder, which is `a` in the one and
`b` in the other. -/
structure SameButFor (a b : String) (t t' : SymbolTable) : Prop where
  /-- The name of the placeholder in the one. -/
  placeholder : t.placeholder = a
  /-- The name of the placeholder in the other. -/
  placeholder' : t'.placeholder = b
  /-- The symbols are the same, in the same order. -/
  entries : t'.symbols.entries = renamed a b t.symbols.entries

/-- Fresh labels leave them the same: the placeholder is no label, because it is not new. -/
theorem SameButFor.withLabels {labels : List (String × Nat)} (h : t.SameButFor a b t')
    (hfresh : t.Fresh labels) (hfresh' : t'.Fresh labels)
    (hdefined : ∃ symbol, t.symbols.get? a = some symbol) :
    (t.withLabels labels).SameButFor a b (t'.withLabels labels) := by
  refine ⟨h.placeholder, h.placeholder', ?_⟩
  have hlabels : a ∉ (labels.map fun label =>
      ((label.1, .resolved label.2) : String × Symbol)).map Prod.fst := by
    rw [List.map_map, List.mem_map]
    rintro ⟨label, hlabel, rfl⟩
    obtain ⟨symbol, hsymbol⟩ := hdefined
    have hnew := hfresh.new label hlabel
    rw [Function.comp_apply, hnew] at hsymbol
    cases hsymbol
  rw [entries_withLabels hfresh, entries_withLabels hfresh', h.entries, renamed_append,
    renamed_of_not_mem hlabels]

section

variable {d : Dictionary} {name : String}

/-- Before the placeholder is defined, no names are but those of the dictionary. -/
theorem get?_dictionary_eq_none (trailer : Trailer) (hliteral : name ∉ d.entries.keys)
    (halias : name ∉ d.bankAliases.values) :
    (resolveAliases d trailer (publishAliases d (ofLiterals d))).get? name = none := by
  have hnone : d.entries.get? name = none := by
    rw [Option.eq_none_iff_forall_ne_some]
    exact fun offset hoffset => hliteral (OrderedMap.mem_keys_iff.mpr ⟨offset, hoffset⟩)
  rw [get?_resolveAliases, lookup_resolutions_of_not_mem halias, Option.none_or,
    get?_publishAliases, if_neg halias, get?_ofLiterals, hnone, Option.map_none]

/-- The merged symbols are the same but for the name of the placeholder, and every other name means
the same with the one as with the other. -/
theorem alike_ofSources {names : String → Prop} (trailer : Trailer) (offset : Int)
    (hliteral : a ∉ d.entries.keys ∧ b ∉ d.entries.keys)
    (halias : a ∉ d.bankAliases.values ∧ b ∉ d.bankAliases.values)
    (hnames : ∀ name, names name → name ≠ a ∧ name ≠ b) :
    (ofSources d trailer offset a).Alike
      (fun t t' => t.AgreeOn names t' ∧ t.SameButFor a b t') (ofSources d trailer offset b) := by
  obtain ⟨t, ht⟩ : ∃ t, (ofSources d trailer offset a).result = .ok t :=
    ⟨_, ofSources_eq_ok_iff.mpr rfl⟩
  obtain ⟨t', ht'⟩ : ∃ t', (ofSources d trailer offset b).result = .ok t' :=
    ⟨_, ofSources_eq_ok_iff.mpr rfl⟩
  refine alike_of_ok ht ht' ⟨⟨fun name hname => ?_, offset, ?_, ?_⟩, ?_⟩
  · rw [get?_ofSources ht, get?_ofSources ht', if_neg (hnames name hname).1,
      if_neg (hnames name hname).2]
  · exact get?_placeholder_of_ofSources ht
  · exact get?_placeholder_of_ofSources ht'
  · obtain rfl := ofSources_eq_ok_iff.mp ht
    obtain rfl := ofSources_eq_ok_iff.mp ht'
    have ha := get?_dictionary_eq_none trailer hliteral.1 halias.1
    have hb := get?_dictionary_eq_none trailer hliteral.2 halias.2
    refine ⟨rfl, rfl, ?_⟩
    have hkeys : a ∉ (resolveAliases d trailer (publishAliases d (ofLiterals d))).keys := by
      rw [OrderedMap.mem_keys_iff, ha]
      rintro ⟨_, ⟨⟩⟩
    rw [OrderedMap.entries_insert ha, OrderedMap.entries_insert hb, renamed_append,
      renamed_of_not_mem hkeys, renamed, List.map_singleton, if_pos rfl]

end

end SymbolTable

/-! ### Tables -/

/-- Tables with the same labels leave the symbols the same but for the name of the placeholder. -/
theorem AliasTable.SameContents.symbols {pool : Pool} {header : Bytes} {t t' : SymbolTable}
    {table table' : AliasTable} {a b : String} (h : table.SameContents table')
    (htable : (build pool t header).result = .ok table)
    (htable' : (build pool t' header).result = .ok table') (hsame : t.SameButFor a b t')
    (hdefined : ∃ symbol, t.symbols.get? a = some symbol) :
    table.symbols.SameButFor a b table'.symbols := by
  obtain ⟨front, hfront, -, rfl⟩ := build_eq_ok_iff.mp htable
  obtain ⟨front', hfront', -, rfl⟩ := build_eq_ok_iff.mp htable'
  obtain ⟨hfresh, hsymbols⟩ := symbols_of_assemble hfront
  obtain ⟨hfresh', hsymbols'⟩ := symbols_of_assemble hfront'
  have hlabels : front'.labels = front.labels := h.2.symm
  dsimp only
  rw [hsymbols, hsymbols', hlabels]
  exact hsame.withLabels hfresh (hlabels ▸ hfresh') hdefined

/-! ### Patches -/

namespace Patch

/-- Two patches are the same but for the name of the placeholder, which is `a` in the one and `b` in
the other. -/
structure SameButFor (a b : String) (p p' : Patch) : Prop where
  /-- The patches have the same name. -/
  name : p'.name = p.name
  /-- The tables are written over the same region. -/
  region : p'.region = p.region
  /-- The tables have the same bytes. -/
  table : p'.table = p.table
  /-- The skeleton header is the same. -/
  skeleton : p'.skeleton = p.skeleton
  /-- The display lists of the asset are the same. -/
  trailer : p'.trailer = p.trailer
  /-- The patched assets have the same bytes. -/
  output : p'.output = p.output
  /-- The symbols are the same but for the name of the placeholder. -/
  symbols : p.symbols.SameButFor a b p'.symbols

variable {source : Manifest.Source} {file a b : String}

/-- Step by step: the builds do the same up to the symbols, and then do alike. -/
theorem alike_build (asset : Bytes) (name : String)
    (h : ∀ m, (Manifest.parse file source).result = .ok m → ¬ m.Uses a ∧ ¬ m.Uses b) :
    (build source asset name file a).Alike (SameButFor a b) (build source asset name file b) := by
  rw [build, build]
  refine .bind_same fun trailer _ => .bind_same fun skeleton _ => .noted ?_
  refine .bind_same fun manifest hmanifest => ?_
  obtain ⟨ha, hb⟩ := h manifest hmanifest
  simp only [Manifest.Uses, not_or] at ha hb
  have hnames : ∀ name, name ∈ manifest.pool.mentioned → name ≠ a ∧ name ≠ b :=
    fun name hname => ⟨fun heq => ha.2.2 (heq ▸ hname), fun heq => hb.2.2 (heq ▸ hname)⟩
  refine (SymbolTable.alike_ofSources trailer _ ⟨ha.1, hb.1⟩ ⟨ha.2.1, hb.2.1⟩ hnames).bind ?_
  rintro t t' - - ⟨hagree, hsame⟩
  refine (AliasTable.alike_build skeleton.header hagree).bind fun table table' ht ht' htable => ?_
  obtain ⟨offset, hplaceholder, -⟩ := hagree.placeholder
  have hsymbols := htable.symbols ht ht' hsame ⟨_, hsame.placeholder ▸ hplaceholder⟩
  rw [htable.1]
  refine .bind_same fun output _ => .noted ?_
  exact alike_of_ok rfl rfl ⟨rfl, rfl, rfl, rfl, rfl, rfl, hsymbols⟩

/-- **The name of the placeholder does not matter.** If a manifest that can be read uses neither of
two names, then a build with the one as the placeholder and a build with the other both succeed,
with patches that are the same but for that name, or are refused for the same cause at the same
location. -/
theorem same_but_for_placeholder (asset : Bytes) (name : String)
    (h : ∀ m, (Manifest.parse file source).result = .ok m → ¬ m.Uses a ∧ ¬ m.Uses b) :
    (∃ p p', (build source asset name file a).result = .ok p ∧
        (build source asset name file b).result = .ok p' ∧ p.SameButFor a b p') ∨
      ∃ cause location,
        (build source asset name file a).result = .error (.refused ⟨cause, location⟩) ∧
        (build source asset name file b).result = .error (.refused ⟨cause, location⟩) := by
  rcases alike_build asset name h with ⟨fault, hfault, hfault'⟩ | ⟨p, p', hp, hp', hsame⟩
  · obtain ⟨cause, location, rfl, -⟩ := failsOnly_build source asset name file a fault hfault
    exact .inr ⟨cause, location, hfault, hfault'⟩
  · exact .inl ⟨p, p', hp, hp', hsame⟩

/-- What is read in the manifest for the small asset. -/
def tinyManifest : Manifest where
  file := Manifest.defaultFile
  dictionary := ⟨.empty, ⟨[("b", "DL_B")], by decide⟩⟩
  pool :=
    { region := ⟨0x54, 0x25⟩
      groups :=
        [⟨"A", ⟨Manifest.defaultFile, 5⟩,
          [⟨"HexString(AB)".toList, ⟨Manifest.defaultFile, 5⟩⟩,
            ⟨"CallList(A)".toList, ⟨Manifest.defaultFile, 5⟩⟩]⟩,
          ⟨"E", ⟨Manifest.defaultFile, 6⟩, []⟩,
          ⟨"B", ⟨Manifest.defaultFile, 7⟩,
            [⟨"CallMatrix(A)".toList, ⟨Manifest.defaultFile, 7⟩⟩,
              ⟨"CallList(DL_B)".toList, ⟨Manifest.defaultFile, 7⟩⟩]⟩] }

theorem tiny_parses : (Manifest.parse Manifest.defaultFile tinySource).result = .ok tinyManifest := by
  decide +kernel

/-- The small patch with another name for the placeholder, which a bank object falls back to. -/
theorem same_but_for_placeholder_tiny :
    (∀ m, (Manifest.parse Manifest.defaultFile tinySource).result = .ok m →
        ¬ m.Uses SymbolTable.defaultPlaceholder ∧ ¬ m.Uses "STOP") ∧
      ∃ p, (build tinySource tinyAsset "tiny" Manifest.defaultFile "STOP").result = .ok p ∧
        p.table = tinyTable ∧ p.output = tinyPatch.output ∧
        p.symbols.symbols.entries = [("DL_B", .external), ("STOP", .resolved 0x71),
          ("A", .resolved 0x54), ("E", .resolved 0x5D), ("B", .resolved 0x5D)] := by
  have hfree : ∀ m, (Manifest.parse Manifest.defaultFile tinySource).result = .ok m →
      ¬ m.Uses SymbolTable.defaultPlaceholder ∧ ¬ m.Uses "STOP" := by
    intro m hm
    obtain rfl := Except.ok.inj (tiny_parses.symm.trans hm)
    decide +kernel
  refine ⟨hfree, ?_⟩
  rcases same_but_for_placeholder tinyAsset "tiny" hfree with
    ⟨p, p', hp, hp', hsame⟩ | ⟨cause, location, hfault, -⟩
  · obtain rfl := Except.ok.inj (tiny_builds.symm.trans hp)
    exact ⟨p', hp', hsame.table, hsame.output, hsame.symbols.entries.trans (by decide +kernel)⟩
  · cases tiny_builds.symm.trans hfault

end Patch

end ModelPatch

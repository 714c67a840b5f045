import ModelPatch.Asset.Trailer
import ModelPatch.Manifest.Dictionary
import ModelPatch.Symbols.Table

/-!
# The symbols of a build

Names come from four sources, and a later source overrules an earlier one: the literal entries of
the dictionary, its bank aliases, the trailer of the asset, which says where the aliased display
lists are, and the placeholder.

## Main definitions

* `SymbolTable.ofSources`: the symbol table of a dictionary, a trailer and a placeholder.
-/

namespace ModelPatch.SymbolTable

/-- The symbols of the literal entries. -/
def ofLiterals (d : Dictionary) : OrderedMap Symbol :=
  d.entries.mapValues fun offset : Nat => .resolved offset

/-- The symbols with every bank alias published as external. -/
def publishAliases (d : Dictionary) (symbols : OrderedMap Symbol) : OrderedMap Symbol :=
  d.bankAliases.values.foldl (fun m name => m.insert name .external) symbols

/-- The symbols with the aliases of trailer entries resolved, in the order of the trailer. -/
def resolveAliases (d : Dictionary) (trailer : Trailer) (symbols : OrderedMap Symbol) :
    OrderedMap Symbol :=
  trailer.entries.foldl
    (fun m entry => match d.bankAliases.get? entry.1 with
      | some name => m.insert name (.resolved entry.2)
      | none => m)
    symbols

/-- What is reported about the aliases that the trailer does not hold. -/
def reportExternal (trailer : Trailer) : List (String × String) → Build Unit
  | [] => pure ()
  | (quoted, name) :: rest => do
    if !trailer.contains quoted then
      Build.note .info s!"'{quoted}' not in trailer, {name} stays a bank object"
    reportExternal trailer rest

/-- The symbol table of a dictionary, a trailer and a placeholder. -/
def ofSources (d : Dictionary) (trailer : Trailer) (placeholderOffset : Int)
    (placeholder : String) : Build SymbolTable := do
  reportExternal trailer d.bankAliases.entries
  let symbols := resolveAliases d trailer (publishAliases d (ofLiterals d))
  return ⟨symbols.insert placeholder (.resolved placeholderOffset), placeholder⟩

end ModelPatch.SymbolTable

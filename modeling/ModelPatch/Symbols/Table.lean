import ModelPatch.Build
import ModelPatch.OrderedMap

/-!
# Symbol tables

A symbol table says what the names in pool calls stand for. Most stand for offsets in the asset. A
bank alias that the trailer does not know stays external: calls of it go to the placeholder, a
display list that ends at once.

## Main definitions

* `Symbol`: what a name stands for;
* `SymbolTable`: the names with their symbols, and the name of the placeholder;
* `SymbolTable.lookup`, `SymbolTable.resolve`, `SymbolTable.define`.
-/

namespace ModelPatch

/-- What a name stands for. -/
inductive Symbol
  /-- An offset in the asset. -/
  | resolved (offset : Int)
  /-- A bank object that the asset does not hold. -/
  | external
  deriving DecidableEq, Repr

namespace Symbol

/-- The offset of a symbol that has one. -/
def offset? : Symbol → Option Int
  | resolved offset => some offset
  | external => none

/-- A symbol as listings show it. -/
def text : Symbol → String
  | resolved offset => Hex.showPadded offset
  | external => "EXTERNAL"

end Symbol

/-- What the names in pool calls stand for. -/
structure SymbolTable where
  /-- The names with their symbols, in order of definition. -/
  symbols : OrderedMap Symbol
  /-- The name that external symbols fall back to. -/
  placeholder : String
  deriving DecidableEq

namespace SymbolTable

/-- The usual name of the placeholder. -/
def defaultPlaceholder : String := "DL_DF_COMMAND"

/-- The symbol of a name. -/
def lookup (t : SymbolTable) (name : String) : Build Symbol :=
  match t.symbols.get? name with
  | some symbol => pure symbol
  | none => Build.fail (.undefinedSymbol name)

/-- The offset of a name, which is that of the placeholder if the symbol is external. -/
def resolve (t : SymbolTable) (name : String) : Build Int := do
  match ← t.lookup name with
  | .resolved offset => return offset
  | .external =>
    Build.note .debug s!"'{name}' is a bank object, using {t.placeholder}"
    match ← t.lookup t.placeholder with
    | .resolved offset => return offset
    | .external => Build.fail (.undefinedSymbol t.placeholder)

/-- The table with one more name. A name can be defined only once. -/
def define (t : SymbolTable) (name : String) (offset : Int) (location : Option Location := none) :
    Build SymbolTable :=
  if t.symbols.contains name then do
    Build.note .error s!"Duplicate dictionary entry '{name}'"
    Build.fail (.duplicateSymbol name) location
  else
    pure { t with symbols := t.symbols.insert name (.resolved offset) }

/-- The names with their offsets, in order of definition. -/
def offsets (t : SymbolTable) : List (String × Option Int) :=
  t.symbols.entries.map fun p => (p.1, p.2.offset?)

/-! ### Listing -/

/-- The number of characters in the longest name. -/
def width (t : SymbolTable) : Nat :=
  (t.symbols.keys.map String.length).foldl max 0

/-- One line of a listing, with the name padded to `width`. -/
def row (width : Nat) (name : String) (symbol : Symbol) : String :=
  name ++ String.ofList (List.replicate (width - name.length) ' ') ++ "  " ++ symbol.text

/-- The names and their symbols, one to a line, with the symbols in one column. -/
def listing (t : SymbolTable) : String :=
  "\n".intercalate (t.symbols.entries.map fun p => row t.width p.1 p.2)

end SymbolTable

end ModelPatch

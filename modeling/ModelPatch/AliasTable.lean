import ModelPatch.Command.Compile
import ModelPatch.Manifest.Pool

/-!
# The alias table

The alias table is what the calls of the object pool compile to, group after group, with the
skeleton header behind the last group. The label of a group is defined as the address at which the
group starts before any of its calls is compiled, so a call can name its own group and all earlier
ones. If the last call of a group runs a display list, it is turned into a jump: nothing is left to
come back to.

## Main definitions

* `AliasTable`: the compiled table;
* `Group.compile`: the bytes of a group;
* `AliasTable.assemble`: the bytes of all groups;
* `AliasTable.build`: the table, if it fits in the pool.
-/

namespace ModelPatch

namespace Group

/-- A step on behalf of the call at a location: a refusal is reported and gets the location. -/
def atCall {α : Type} (location : Location) (step : Build α) : Build α :=
  match step.result with
  | .error (.refused e) =>
    ⟨step.log ++ [⟨.error, s!"{location.text}: {e.cause.message}"⟩],
      .error (.refused (e.withLocation location))⟩
  | _ => step

/-- A call of a group and its bytes. -/
def compileCall (t : SymbolTable) (placed : PlacedCall) : Build (Call × Bytes) :=
  atCall placed.location do
    let call ← Call.parse placed.text
    return (call, ← call.compile t)

/-- Whether the last of some calls runs a display list. -/
def endsInList (calls : List Call) : Bool :=
  calls.getLast?.any fun call => call.function? = some .callList

/-- The bytes of a group whose label is defined in `t`. -/
def compile (t : SymbolTable) (g : Group) : Build Bytes := do
  let compiled ← g.calls.mapM (compileCall t)
  let plain := compiled.flatMap Prod.snd
  if endsInList (compiled.map Prod.fst) then
    Build.need (.writeOutside Command.branchDistance)
      (Bytes.setFromEnd? plain Command.branchDistance Command.branchFlag)
  else
    return plain

end Group

/-- A compiled table. -/
structure AliasTable where
  /-- The bytes of the table. -/
  data : Bytes
  /-- The labels of the groups with their addresses, in order. -/
  labels : List (String × Nat)
  /-- The symbols, among them the labels. -/
  symbols : SymbolTable
  deriving DecidableEq

namespace AliasTable

/-- The table of no groups. -/
def empty (t : SymbolTable) : AliasTable :=
  ⟨[], [], t⟩

/-- The table of the given groups, the first of which starts at `address`. -/
def assemble (address : Nat) (t : SymbolTable) : List Group → Build AliasTable
  | [] => pure (empty t)
  | g :: rest => do
    let extended ← t.define g.label address (some g.location)
    Build.note .debug s!"{g.label} at {Hex.showNat address}"
    let code ← g.compile extended
    let later ← assemble (address + code.length) extended rest
    return ⟨code ++ later.data, (g.label, address) :: later.labels, later.symbols⟩

/-- The table of a pool, closed by a skeleton header. It must fit in the pool. -/
def build (pool : Pool) (t : SymbolTable) (header : Bytes) : Build AliasTable := do
  let groups ← assemble pool.region.offset t pool.groups
  let table := { groups with data := groups.data ++ header }
  let size := table.data.length
  let budget := pool.region.size
  if budget < size then
    Build.note .error
      s!"Alias table is {Hex.showNat size} bytes, pool holds {Hex.showNat budget}"
    Build.fail (.overflow (.pool size budget))
  Build.note .info s!"Alias table uses {Hex.showNat size} of {Hex.showNat budget} bytes"
  return table

end AliasTable

end ModelPatch

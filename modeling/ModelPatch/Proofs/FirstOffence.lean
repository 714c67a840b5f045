import Mathlib
import ModelPatch.Proofs.Refusals
import ModelPatch.Proofs.TwoPass

/-!
# The first offence decides

A pool is a list of items: the label of each group, followed by its calls. Each item can be checked
by itself, once it is known which labels come before it: a label must not be defined already, and a
call must compile. A table is refused for the first item that does not pass, on the line of that
item. If all pass, it is refused only if it is too large.

The proof composes steps by `RefusedFor`, which says of a step what it is refused for, if it is
refused. Where two steps follow each other, the reason of the first takes precedence, and this is
the order in which `List.findSome?` looks through the items.

## Main definitions

* `Check`, `Check.Passes`: an item with the symbols that are defined when its turn comes;
* `Pool.checks`: the items of a pool in the order of the source;
* `Group.callPlace`: where a call comes among the items;
* `Build.RefusedFor`: what a step is refused for.

## Main results

* `AliasTable.refusedFor_build`: a table is refused for the first item that does not pass, or for
  its size;
* `AliasTable.first_offence`: the same, case by case, and a call that names a later group.
-/

namespace ModelPatch

/-! ### What a step is refused for -/

namespace Build

variable {α β : Type} {x : Build α} {reason reason' : Option BuildError}

/-- A step is refused for a reason, or it succeeds if there is none. -/
def RefusedFor (x : Build α) : Option BuildError → Prop
  | some e => x.result = .error (.refused e)
  | none => ∃ a, x.result = .ok a

theorem refusedFor_of_ok {a : α} (h : x.result = .ok a) : x.RefusedFor none :=
  ⟨a, h⟩

/-- The reason of the first of two steps takes precedence. -/
theorem RefusedFor.bind {f : α → Build β} (hx : x.RefusedFor reason)
    (hf : ∀ a, x.result = .ok a → (f a).RefusedFor reason') :
    (x >>= f).RefusedFor (reason.or reason') := by
  cases reason with
  | some e => exact result_bind_eq_error_iff.mpr (.inl hx)
  | none =>
    obtain ⟨a, ha⟩ := hx
    have hrest := hf a ha
    cases reason' with
    | some e => exact result_bind_eq_error_iff.mpr (.inr ⟨a, ha, hrest⟩)
    | none =>
      obtain ⟨b, hb⟩ := hrest
      exact ⟨b, result_bind_eq_ok_iff.mpr ⟨a, ha, hb⟩⟩

/-- A step that is followed by one that succeeds is refused for its own reason. -/
theorem RefusedFor.bind_ok {f : α → Build β} (hx : x.RefusedFor reason)
    (hf : ∀ a, x.result = .ok a → ∃ b, (f a).result = .ok b) : (x >>= f).RefusedFor reason := by
  rw [← Option.or_none (o := reason)]
  exact hx.bind hf

theorem RefusedFor.noted {level : Level} {text : String} {f : Unit → Build β}
    (h : (f ()).RefusedFor reason) : (note level text >>= f).RefusedFor reason :=
  (refusedFor_of_ok (result_note level text)).bind fun _ _ => h

theorem findSome?_cons_or (f : α → Option β) (a : α) (rest : List α) :
    (a :: rest).findSome? f = (f a).or (rest.findSome? f) := by
  rw [List.findSome?_cons]
  cases f a <;> rfl

/-- Steps for the items of a list are refused for the first reason among the items. -/
theorem refusedFor_mapM {f : α → Build β} {reasonOf : α → Option BuildError}
    (hf : ∀ a, (f a).RefusedFor (reasonOf a)) (xs : List α) :
    (xs.mapM f).RefusedFor (xs.findSome? reasonOf) := by
  induction xs with
  | nil => exact refusedFor_of_ok rfl
  | cons a rest ih =>
    rw [List.mapM_cons, findSome?_cons_or]
    exact (hf a).bind fun b _ => ih.bind_ok fun bs _ => ⟨b :: bs, rfl⟩

end Build

open Build

/-! ### Items -/

/-- An item of a pool, with the symbols that are defined when its turn comes. -/
inductive Check
  /-- The label of a group. -/
  | label (t : SymbolTable) (g : Group)
  /-- A call of a group. -/
  | call (t : SymbolTable) (placed : PlacedCall)

namespace Check

/-- An item passes if it is a label that is not defined yet or a call that compiles. -/
def Passes : Check → Prop
  | label t g => t.symbols.get? g.label = none
  | call t placed => ∃ bytes, (Call.compileText t placed.text).result = .ok bytes

/-- What is held against an item that does not pass. -/
def offence? : Check → Option BuildError
  | label t g =>
    if t.symbols.contains g.label then some ⟨.duplicateSymbol g.label, some g.location⟩ else none
  | call t placed =>
    match (Call.compileText t placed.text).result with
    | .error (.refused e) => some ⟨e.cause, some placed.location⟩
    | _ => none

theorem offence?_label_of_some {t : SymbolTable} {g : Group} {symbol : Symbol}
    (h : t.symbols.get? g.label = some symbol) :
    (label t g).offence? = some ⟨.duplicateSymbol g.label, some g.location⟩ := by
  rw [offence?, OrderedMap.contains, h]
  rfl

theorem offence?_call_of_error {t : SymbolTable} {placed : PlacedCall} {e : BuildError}
    (h : (Call.compileText t placed.text).result = .error (.refused e)) :
    (call t placed).offence? = some ⟨e.cause, some placed.location⟩ := by
  rw [offence?, h]

/-- An item passes if nothing is held against it. -/
theorem offence?_eq_none_iff {c : Check} : c.offence? = none ↔ c.Passes := by
  cases c with
  | label t g =>
    rw [Passes, offence?, OrderedMap.contains]
    cases t.symbols.get? g.label <;> simp
  | call t placed =>
    rw [Passes]
    cases hresult : (Call.compileText t placed.text).result with
    | ok bytes => simp [offence?, hresult]
    | error fault =>
      obtain ⟨cause, rfl, -⟩ := Call.failsOnly_compileText t placed.text fault hresult
      simp [offence?_call_of_error hresult]

theorem findSome?_offence?_eq_none {checks : List Check} (h : ∀ c ∈ checks, c.Passes) :
    checks.findSome? offence? = none := by
  rw [List.findSome?_eq_none_iff]
  intro c hc
  exact offence?_eq_none_iff.mpr (h c hc)

end Check

/-- The items of groups, the first of which starts at `address`. -/
def Group.checksFrom (address : Nat) (t : SymbolTable) (groups : List Group) : List Check :=
  (groups.mapIdx fun i g =>
    .label (t.withLabels ((labelsFrom address groups).take i)) g ::
      g.calls.map (.call (t.withLabels ((labelsFrom address groups).take (i + 1))))).flatten

/-- The items of a pool in the order of the source: the label of each group and then its calls. A
label is checked with the labels of the earlier groups defined, and a call with that of its own
group as well. -/
def Pool.checks (pool : Pool) (t : SymbolTable) : List Check :=
  Group.checksFrom pool.region.offset t pool.groups

/-- The number of bytes that the groups of a pool compile to, if they compile. -/
def Pool.codeSize (pool : Pool) : Nat :=
  (pool.groups.map Group.size).sum

/-- What is held against a pool whose items all pass, if the skeleton header has `headerSize`
bytes. -/
def Pool.overflow? (pool : Pool) (headerSize : Nat) : Option BuildError :=
  let size := pool.codeSize + headerSize
  if pool.region.size < size then some ⟨.overflow (.pool size pool.region.size), none⟩ else none

theorem Group.checksFrom_cons (address : Nat) (t : SymbolTable) (g : Group) (rest : List Group) :
    checksFrom address t (g :: rest) =
      .label t g :: g.calls.map (.call (t.withLabels [(g.label, address)])) ++
        checksFrom (address + g.size) (t.withLabels [(g.label, address)]) rest := by
  rw [checksFrom, List.mapIdx_cons, List.flatten_cons, labelsFrom_cons]
  rfl

/-- Where the call with index `j` of the group with index `i` comes among the items. -/
def Group.callPlace (groups : List Group) (i j : Nat) : Nat :=
  ((groups.take i).map fun g => g.calls.length + 1).sum + (j + 1)

/-- **Every call has its place among the items.** It is checked with the labels up to that of its
own group defined. -/
theorem Group.exists_split_checksFrom {groups : List Group} {i j : Nat} {g : Group}
    {placed : PlacedCall} (address : Nat) (t : SymbolTable) (hg : groups[i]? = some g)
    (hplaced : g.calls[j]? = some placed) :
    ∃ front back, checksFrom address t groups =
        front ++ .call (t.withLabels ((labelsFrom address groups).take (i + 1))) placed :: back ∧
      front.length = callPlace groups i j := by
  induction groups generalizing address t i with
  | nil => simp at hg
  | cons first rest ih =>
    rw [checksFrom_cons, labelsFrom_cons]
    cases i with
    | zero =>
      obtain rfl : first = g := by simpa using hg
      obtain ⟨hj, hget⟩ := List.getElem?_eq_some_iff.mp hplaced
      have hcalls : first.calls.take j ++ placed :: first.calls.drop (j + 1) = first.calls := by
        rw [← hget, ← List.drop_eq_getElem_cons hj, List.take_append_drop]
      refine ⟨.label t first ::
          (first.calls.take j).map (.call (t.withLabels [(first.label, address)])),
        (first.calls.drop (j + 1)).map (.call (t.withLabels [(first.label, address)])) ++
          checksFrom (address + first.size) (t.withLabels [(first.label, address)]) rest, ?_, ?_⟩
      · conv_lhs => rw [← hcalls, List.map_append, List.map_cons]
        simp only [List.cons_append, List.append_assoc]
        rfl
      · rw [callPlace, List.length_cons, List.length_map, List.length_take, Nat.min_eq_left hj.le,
          List.take_zero, List.map_nil, List.sum_nil, Nat.zero_add]
    | succ i =>
      obtain ⟨front, back, hsplit, hlength⟩ :=
        ih (address + first.size) (t.withLabels [(first.label, address)]) hg
      refine ⟨.label t first ::
        first.calls.map (.call (t.withLabels [(first.label, address)])) ++ front, back, ?_, ?_⟩
      · rw [hsplit, List.append_assoc]
        rfl
      · rw [List.length_append, hlength, List.length_cons, List.length_map, callPlace, callPlace,
          List.take_succ_cons, List.map_cons, List.sum_cons]
        omega

/-! ### The table -/

theorem SymbolTable.refusedFor_define (t : SymbolTable) (g : Group) (address : Nat) :
    (t.define g.label address (some g.location)).RefusedFor (Check.label t g).offence? := by
  rw [define, Check.offence?]
  split
  · exact .noted rfl
  · exact refusedFor_of_ok rfl

namespace Group

/-- A call is refused for its offence, which gets the location of the call. -/
theorem refusedFor_compileCall (t : SymbolTable) (placed : PlacedCall) :
    (compileCall t placed).RefusedFor (Check.call t placed).offence? := by
  cases hresult : (Call.compileText t placed.text).result with
  | ok bytes =>
    obtain ⟨call, hcall, hbytes⟩ := Call.compileText_eq_ok_iff.mp hresult
    have hcompiled : (compileCall t placed).result = .ok (call, bytes) :=
      compileCall_eq_ok_iff.mpr ⟨hcall, hbytes⟩
    have hpasses : (Check.call t placed).Passes := ⟨bytes, hresult⟩
    rw [Check.offence?_eq_none_iff.mpr hpasses]
    exact refusedFor_of_ok hcompiled
  | error fault =>
    obtain ⟨cause, rfl, -⟩ := Call.failsOnly_compileText t placed.text fault hresult
    have hstep : (Call.parse placed.text >>= fun call => call.compile t >>= fun bytes =>
        (pure (call, bytes) : Build (Call × Bytes))).result = .error (.refused ⟨cause, none⟩) := by
      rcases result_bind_eq_error_iff.mp hresult with hparse | ⟨call, hcall, hcompile⟩
      · exact result_bind_eq_error_iff.mpr (.inl hparse)
      · refine result_bind_eq_error_iff.mpr (.inr ⟨call, hcall, ?_⟩)
        exact result_bind_eq_error_iff.mpr (.inl hcompile)
    rw [Check.offence?_call_of_error hresult, RefusedFor, compileCall, atCall, hstep]
    rfl

/-- A group is refused for the first of its calls that does not compile. -/
theorem refusedFor_compile (t : SymbolTable) (g : Group) :
    (g.compile t).RefusedFor (g.calls.findSome? fun placed => (Check.call t placed).offence?) := by
  have hcalls := refusedFor_mapM (refusedFor_compileCall t) g.calls
  rw [compile]
  refine hcalls.bind_ok fun compiled hcompiled => ?_
  have hcode : (g.compile t).result = .ok (codeOf compiled) :=
    compile_eq_ok_iff.mpr ⟨compiled, mapM_compileCall_eq_ok_iff.mp hcompiled, rfl⟩
  obtain ⟨_, hcompiled', hrest⟩ := result_bind_eq_ok_iff.mp hcode
  obtain rfl := Except.ok.inj (hcompiled.symm.trans hcompiled')
  exact ⟨_, hrest⟩

end Group

namespace AliasTable

variable {t : SymbolTable}

/-- Groups are refused for the first item that does not pass. -/
theorem refusedFor_assemble (address : Nat) (t : SymbolTable) (groups : List Group) :
    (assemble address t groups).RefusedFor
      ((Group.checksFrom address t groups).findSome? Check.offence?) := by
  induction groups generalizing address t with
  | nil => exact refusedFor_of_ok rfl
  | cons g rest ih =>
    rw [assemble, Group.checksFrom_cons, List.cons_append, findSome?_cons_or,
      List.findSome?_append, List.findSome?_map]
    refine (SymbolTable.refusedFor_define t g address).bind fun extended hextended => .noted ?_
    obtain ⟨-, rfl⟩ := SymbolTable.define_eq_ok_iff.mp hextended
    refine (Group.refusedFor_compile _ g).bind fun code hcode => ?_
    obtain ⟨compiled, hcompiled, rfl⟩ := Group.compile_eq_ok_iff.mp hcode
    rw [hcompiled.length_codeOf]
    exact (ih _ _).bind_ok fun later _ => ⟨_, rfl⟩

/-- **The first offence decides**, and after all items the size. -/
theorem refusedFor_build (pool : Pool) (t : SymbolTable) (header : Bytes) :
    (build pool t header).RefusedFor
      (((pool.checks t).findSome? Check.offence?).or (pool.overflow? header.length)) := by
  rw [build]
  refine (refusedFor_assemble _ t _).bind fun groups hgroups => ?_
  have hlength : (groups.data ++ header).length = pool.codeSize + header.length := by
    rw [List.length_append, length_of_assemble hgroups, Pool.codeSize]
  dsimp only
  rw [hlength, Pool.overflow?]
  split
  · exact .noted rfl
  · exact .noted (refusedFor_of_ok rfl)

/-- A table is refused for an item that does not pass, if all items before it do. -/
theorem result_build_of_split {pool : Pool} {header : Bytes} {front back : List Check} {c : Check}
    {e : BuildError} (hsplit : pool.checks t = front ++ c :: back)
    (hfront : ∀ c ∈ front, c.Passes) (hoffence : c.offence? = some e) :
    (build pool t header).result = .error (.refused e) := by
  have hfirst : (pool.checks t).findSome? Check.offence? = some e := by
    rw [hsplit, List.findSome?_append, Check.findSome?_offence?_eq_none hfront, Option.none_or,
      findSome?_cons_or, hoffence, Option.some_or]
  have hbuild := refusedFor_build pool t header
  rwa [hfirst] at hbuild

/-- **Fail-fast.** A table is refused for the first item of its pool that does not pass.

* If that is a label, it is a duplicate, and the refusal is on the line of its group.
* If that is a call, the refusal has the cause for which the call alone is refused, with the symbols
  that are defined at that point, and is on the line of the call.
* If all items pass, the table is refused exactly if it is too large, and on no line.

A call of a display list or a matrix does not pass if its name is neither a symbol nor a label up to
that of its own group. It makes no difference if the name is the label of a later group: it is
undefined where the call stands. -/
theorem first_offence (pool : Pool) (t : SymbolTable) (header : Bytes) :
    (∀ (front back : List Check) (t' : SymbolTable) (g : Group) (symbol : Symbol),
      pool.checks t = front ++ .label t' g :: back →
      (∀ c ∈ front, c.Passes) → t'.symbols.get? g.label = some symbol →
      (build pool t header).result =
        .error (.refused ⟨.duplicateSymbol g.label, some g.location⟩)) ∧
    (∀ (front back : List Check) (t' : SymbolTable) (placed : PlacedCall) (fault : Fault),
      pool.checks t = front ++ .call t' placed :: back →
      (∀ c ∈ front, c.Passes) → (Call.compileText t' placed.text).result = .error fault →
      ∃ cause, fault = .refused ⟨cause, none⟩ ∧
        (build pool t header).result = .error (.refused ⟨cause, some placed.location⟩)) ∧
    ((∀ c ∈ pool.checks t, c.Passes) →
      (pool.region.size < pool.codeSize + header.length →
        (build pool t header).result =
          .error (.refused
            ⟨.overflow (.pool (pool.codeSize + header.length) pool.region.size), none⟩)) ∧
      (pool.codeSize + header.length ≤ pool.region.size →
        ∃ table, (build pool t header).result = .ok table)) ∧
    (∀ (i j : Nat) (g : Group) (placed : PlacedCall) (call : Call) (name : String),
      pool.groups[i]? = some g → g.calls[j]? = some placed → placed.call? = some call →
      call.Names name → t.symbols.get? name = none →
      name ∉ (pool.groups.take (i + 1)).map Group.label →
      ∃ front back : List Check,
        pool.checks t =
          front ++ .call (t.withLabels (pool.labels.take (i + 1))) placed :: back ∧
        front.length = Group.callPlace pool.groups i j ∧
        (Call.compileText (t.withLabels (pool.labels.take (i + 1))) placed.text).result =
          .error (.refused ⟨.undefinedSymbol name, none⟩) ∧
        ((∀ c ∈ front, c.Passes) →
          (build pool t header).result =
            .error (.refused ⟨.undefinedSymbol name, some placed.location⟩))) := by
  refine ⟨?_, ?_, ?_, ?_⟩
  · intro front back t' g symbol hsplit hfront hdefined
    exact result_build_of_split hsplit hfront (Check.offence?_label_of_some hdefined)
  · intro front back t' placed fault hsplit hfront hfault
    obtain ⟨cause, rfl, -⟩ := Call.failsOnly_compileText t' placed.text fault hfault
    exact ⟨cause, rfl, result_build_of_split hsplit hfront (Check.offence?_call_of_error hfault)⟩
  · intro hpass
    have hbuild := refusedFor_build pool t header
    rw [Check.findSome?_offence?_eq_none hpass, Option.none_or, Pool.overflow?] at hbuild
    constructor
    · intro hlarge
      rwa [if_pos hlarge] at hbuild
    · intro hfits
      rwa [if_neg (Nat.not_lt.mpr hfits)] at hbuild
  · intro i j g placed call name hg hplaced hcall hnames hname hlabels
    obtain ⟨front, back, hsplit, hlength⟩ :=
      Group.exists_split_checksFrom pool.region.offset t hg hplaced
    have hundefined : (t.withLabels (pool.labels.take (i + 1))).symbols.get? name = none := by
      rw [SymbolTable.get?_withLabels_of_not_mem, hname]
      rwa [List.map_take, Pool.labels, Group.map_fst_labelsFrom, ← List.map_take]
    have hcompile := result_bind_eq_error_iff.mpr
      (.inr ⟨call, Call.parse_eq_ok_iff.mpr hcall, hnames.compile_undefined hundefined⟩)
    refine ⟨front, back, hsplit, hlength, hcompile, ?_⟩
    intro hfront
    exact result_build_of_split hsplit hfront (Check.offence?_call_of_error hcompile)

/-- A pool whose first group calls the second one. -/
def forwardPool : Pool where
  region := ⟨0x54, 0x40⟩
  groups :=
    [⟨"A", ⟨"small", 1⟩,
      [⟨"HexString(00)".toList, ⟨"small", 1⟩⟩, ⟨"CallList(B)".toList, ⟨"small", 2⟩⟩]⟩,
     ⟨"B", ⟨"small", 3⟩, [⟨"CallList(A)".toList, ⟨"small", 3⟩⟩]⟩]

/-- A forward reference is refused on its own line, although the label stands on the next one. -/
theorem first_offence_forward :
    (∀ c ∈ (forwardPool.checks smallSymbols).take 2, c.Passes) ∧
      (build forwardPool smallSymbols [0x15, 0x12]).result =
        .error (.refused ⟨.undefinedSymbol "B", some ⟨"small", 2⟩⟩) := by
  have hclean : ∀ c ∈ (forwardPool.checks smallSymbols).take 2, c.offence? = none := by
    decide +kernel
  have hpass : ∀ c ∈ (forwardPool.checks smallSymbols).take 2, c.Passes := by
    intro c hc
    exact Check.offence?_eq_none_iff.mp (hclean c hc)
  have hcall : PlacedCall.call? ⟨"CallList(B)".toList, ⟨"small", 2⟩⟩ =
      some ⟨"CallList", ["B".toList]⟩ := by
    decide +kernel
  have hnames : Call.Names ⟨"CallList", ["B".toList]⟩ "B" := ⟨.inl (by decide +kernel), rfl⟩
  have hsymbol : smallSymbols.symbols.get? "B" = none := by decide +kernel
  have hlabels : "B" ∉ (forwardPool.groups.take (0 + 1)).map Group.label := by decide +kernel
  obtain ⟨-, -, -, hforward⟩ := first_offence forwardPool smallSymbols [0x15, 0x12]
  obtain ⟨front, back, hsplit, hlength, -, hrefused⟩ :=
    hforward 0 1 _ _ _ "B" rfl rfl hcall hnames hsymbol hlabels
  refine ⟨hpass, hrefused ?_⟩
  have htake : front = (forwardPool.checks smallSymbols).take 2 := by
    rw [hsplit]
    exact (List.take_left' hlength).symm
  rwa [htake]

end AliasTable

end ModelPatch

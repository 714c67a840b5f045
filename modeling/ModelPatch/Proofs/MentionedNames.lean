import Mathlib
import ModelPatch.Proofs.PatchRefusals
import ModelPatch.Proofs.TwoPass

/-!
# Only mentioned names matter

A pool mentions a name where it is a label and where a call of a display list or a matrix is about
it. A table is assembled twice here, with two symbol tables that give the mentioned names the same
meaning and may differ in everything else: in the number, order and values of their other names and
in what the placeholder is called. The two runs cannot be told apart. Either both yield the same
bytes and labels, or both are refused for the same cause on the same line.

The two runs are compared step by step, and `Build.Alike` says what is kept: the same fault, or
related values. The symbol tables grow on the way, by the same label at the same address in both
runs, and what has to survive this is `SymbolTable.AgreeOn`.

## Main definitions

* `Call.name?`, `PlacedCall.name?`: the name that a call is about;
* `Pool.mentioned`: the names that a pool mentions;
* `SymbolTable.AgreeOn`: two symbol tables give some names the same meaning;
* `Build.Alike`: two steps come out alike.

## Main results

* `SymbolTable.AgreeOn.withLabel`: agreement survives the definition of a label;
* `Call.alike_compile`: a call is compiled alike with symbols that agree on its name;
* `AliasTable.build_of_agreeOn`: a pool is compiled alike with symbols that agree on what it
  mentions.
-/

namespace ModelPatch

/-! ### Two runs -/

namespace Build

variable {α β γ δ : Type} {r : α → β → Prop} {x : Build α} {y : Build β}

/-- Two steps come out alike: both fail with the same fault, or both succeed with related values. -/
def Alike (r : α → β → Prop) (x : Build α) (y : Build β) : Prop :=
  (∃ fault, x.result = .error fault ∧ y.result = .error fault) ∨
    ∃ a b, x.result = .ok a ∧ y.result = .ok b ∧ r a b

theorem alike_of_ok {a : α} {b : β} (hx : x.result = .ok a) (hy : y.result = .ok b) (h : r a b) :
    x.Alike r y :=
  .inr ⟨a, b, hx, hy, h⟩

theorem alike_refl (x : Build α) : x.Alike (· = ·) x := by
  cases hx : x.result with
  | error fault => exact .inl ⟨fault, hx, hx⟩
  | ok a => exact .inr ⟨a, a, hx, hx, rfl⟩

/-- Alike steps that are followed by alike steps are alike together. -/
theorem Alike.bind {s : γ → δ → Prop} {f : α → Build γ} {g : β → Build δ} (h : x.Alike r y)
    (hfg : ∀ a b, x.result = .ok a → y.result = .ok b → r a b → (f a).Alike s (g b)) :
    (x >>= f).Alike s (y >>= g) := by
  rcases h with ⟨fault, hx, hy⟩ | ⟨a, b, hx, hy, hab⟩
  · exact .inl ⟨fault, result_bind_eq_error_iff.mpr (.inl hx),
      result_bind_eq_error_iff.mpr (.inl hy)⟩
  · rcases hfg a b hx hy hab with ⟨fault, hf, hg⟩ | ⟨c, d, hf, hg, hcd⟩
    · exact .inl ⟨fault, result_bind_eq_error_iff.mpr (.inr ⟨a, hx, hf⟩),
        result_bind_eq_error_iff.mpr (.inr ⟨b, hy, hg⟩)⟩
    · exact .inr ⟨c, d, result_bind_eq_ok_iff.mpr ⟨a, hx, hf⟩,
        result_bind_eq_ok_iff.mpr ⟨b, hy, hg⟩, hcd⟩

/-- A step that both runs take makes no difference between them. -/
theorem Alike.bind_same {s : γ → δ → Prop} {f : α → Build γ} {g : α → Build δ}
    (hfg : ∀ a, x.result = .ok a → (f a).Alike s (g a)) : (x >>= f).Alike s (x >>= g) := by
  refine (alike_refl x).bind ?_
  rintro a _ ha - rfl
  exact hfg a ha

/-- Notices do not count, so the two runs may word them differently. -/
theorem Alike.noted {s : γ → δ → Prop} {level level' : Level} {text text' : String}
    {f : Unit → Build γ} {g : Unit → Build δ} (h : (f ()).Alike s (g ())) :
    (note level text >>= f).Alike s (note level' text' >>= g) :=
  (alike_of_ok (result_note level text) (result_note level' text') (r := fun _ _ => True)
    trivial).bind fun _ _ _ _ _ => h

theorem Alike.mapM {f g : α → Build β} {xs : List α} (h : ∀ a ∈ xs, (f a).Alike (· = ·) (g a)) :
    (xs.mapM f).Alike (· = ·) (xs.mapM g) := by
  induction xs with
  | nil => exact alike_refl (pure [])
  | cons a rest ih =>
    rw [List.mapM_cons, List.mapM_cons]
    refine (h a List.mem_cons_self).bind ?_
    rintro b _ - - rfl
    refine (ih fun a' ha' => h a' (List.mem_cons_of_mem a ha')).bind ?_
    rintro bs _ - - rfl
    exact alike_refl (pure (b :: bs))

/-- Alike steps on behalf of the same call get the same location. -/
theorem Alike.atCall {x y : Build α} (location : Location) (h : x.Alike (· = ·) y) :
    (Group.atCall location x).Alike (· = ·) (Group.atCall location y) := by
  rcases h with ⟨fault, hx, hy⟩ | ⟨a, b, hx, hy, rfl⟩
  · cases fault with
    | refused e =>
      exact .inl ⟨.refused (e.withLocation location), by rw [Group.atCall, hx],
        by rw [Group.atCall, hy]⟩
    | defective d =>
      exact .inl ⟨.defective d, by rw [Group.atCall, hx]; exact hx,
        by rw [Group.atCall, hy]; exact hy⟩
  · exact alike_of_ok (Group.atCall_eq_ok_iff.mpr hx) (Group.atCall_eq_ok_iff.mpr hy) rfl

end Build

open Build

/-! ### Mentioned names -/

/-- The name that a call of a display list or a matrix is about. -/
def Call.name? (c : Call) : Option String :=
  match c.function?, c.arguments with
  | some .callList, [argument] | some .callMatrix, [argument] => some (String.ofList argument)
  | _, _ => none

theorem Call.name?_eq_some_iff {c : Call} {name : String} :
    c.name? = some name ↔ c.Names name := by
  constructor
  · intro h
    rw [Call.name?] at h
    split at h
    · next argument hf harguments =>
      obtain rfl := Option.some.inj h
      exact ⟨.inl hf, by rw [harguments, String.toList_ofList]⟩
    · next argument hf harguments =>
      obtain rfl := Option.some.inj h
      exact ⟨.inr hf, by rw [harguments, String.toList_ofList]⟩
    · cases h
  · rintro ⟨hf | hf, harguments⟩ <;> simp [Call.name?, hf, harguments]

/-- The name that a call in a pool is about. -/
def PlacedCall.name? (placed : PlacedCall) : Option String :=
  placed.call?.bind Call.name?

/-- The names that a group mentions: its label and those that its calls are about. -/
def Group.mentioned (g : Group) : List String :=
  g.label :: g.calls.filterMap PlacedCall.name?

/-- The names that a pool mentions. -/
def Pool.mentioned (pool : Pool) : List String :=
  pool.groups.flatMap Group.mentioned

/-! ### Symbols -/

namespace SymbolTable

variable {t t' : SymbolTable} {names : String → Prop} {name : String}

/-- Two symbol tables give some names the same meaning. Their placeholders need not have the same
name but stand for the same offset. -/
structure AgreeOn (names : String → Prop) (t t' : SymbolTable) : Prop where
  /-- Each of the names means the same in both, or is undefined in both. -/
  get? : ∀ name, names name → t.symbols.get? name = t'.symbols.get? name
  /-- What the placeholders stand for. -/
  placeholder : ∃ offset, t.symbols.get? t.placeholder = some (.resolved offset) ∧
    t'.symbols.get? t'.placeholder = some (.resolved offset)

/-- Agreement survives the definition of a label, at the same address if it is one of the names. A
placeholder is never redefined by one, because labels are new. -/
theorem AgreeOn.withLabel {label : String} {address address' : Nat} (h : t.AgreeOn names t')
    (hnew : t.symbols.get? label = none) (hnew' : t'.symbols.get? label = none)
    (haddress : names label → address = address') :
    (t.withLabels [(label, address)]).AgreeOn names (t'.withLabels [(label, address')]) := by
  obtain ⟨offset, hplaceholder, hplaceholder'⟩ := h.placeholder
  refine ⟨?_, offset, ?_, ?_⟩
  · intro name hname
    rw [get?_withLabels_singleton, get?_withLabels_singleton, h.get? name hname]
    split
    · next heq => rw [haddress (heq ▸ hname)]
    · rfl
  · have hne : t.placeholder ≠ label := fun heq => by simp [← heq, hplaceholder] at hnew
    rw [placeholder_withLabels, get?_withLabels_singleton, if_neg hne, hplaceholder]
  · have hne : t'.placeholder ≠ label := fun heq => by simp [← heq, hplaceholder'] at hnew'
    rw [placeholder_withLabels, get?_withLabels_singleton, if_neg hne, hplaceholder']

theorem alike_define (h : t.AgreeOn names t') (hname : names name) (address : Nat)
    (location : Option Location) :
    (t.define name address location).Alike (AgreeOn names) (t'.define name address location) := by
  cases hget : t.symbols.get? name with
  | none =>
    have hget' : t'.symbols.get? name = none := by rw [← h.get? name hname, hget]
    exact alike_of_ok (define_eq_ok_iff.mpr ⟨hget, rfl⟩) (define_eq_ok_iff.mpr ⟨hget', rfl⟩)
      (h.withLabel hget hget' fun _ => rfl)
  | some symbol =>
    have hget' : t'.symbols.get? name = some symbol := by rw [← h.get? name hname, hget]
    rw [define, define, OrderedMap.contains, OrderedMap.contains, hget, hget']
    exact .inl ⟨.refused ⟨.duplicateSymbol name, location⟩, rfl, rfl⟩

theorem alike_lookup (h : t.AgreeOn names t') (hname : names name) :
    (t.lookup name).Alike (· = ·) (t'.lookup name) := by
  rw [lookup, lookup, h.get? name hname]
  exact alike_refl _

/-- An external name falls back to the placeholder, and the placeholders agree too. -/
theorem alike_resolve (h : t.AgreeOn names t') (hname : names name) :
    (t.resolve name).Alike (· = ·) (t'.resolve name) := by
  obtain ⟨offset, hplaceholder, hplaceholder'⟩ := h.placeholder
  rw [resolve, resolve]
  refine (alike_lookup h hname).bind ?_
  rintro symbol _ - - rfl
  cases symbol with
  | resolved offset => exact alike_refl (pure offset)
  | external =>
    refine .noted ?_
    rw [lookup, lookup, hplaceholder, hplaceholder']
    exact alike_refl _

end SymbolTable

/-! ### Calls -/

namespace Call

variable {t t' : SymbolTable} {names : String → Prop} {c : Call}

theorem alike_command (h : t.AgreeOn names t') (hname : ∀ name ∈ c.name?, names name) :
    (c.command t).Alike (· = ·) (c.command t') := by
  rw [Call.command, Call.command]
  cases hf : c.function? with
  | none => exact alike_refl _
  | some f =>
    cases f with
    | callList =>
      refine .bind_same fun argument hargument => ?_
      have hmem : names (String.ofList argument) :=
        hname _ (by simp [Call.name?, hf, onlyArgument_eq_ok_iff.mp hargument])
      refine (SymbolTable.alike_resolve h hmem).bind ?_
      rintro offset _ - - rfl
      exact alike_refl _
    | callMatrix =>
      refine .bind_same fun argument hargument => ?_
      have hmem : names (String.ofList argument) :=
        hname _ (by simp [Call.name?, hf, onlyArgument_eq_ok_iff.mp hargument])
      refine (SymbolTable.alike_lookup h hmem).bind ?_
      rintro symbol _ - - rfl
      exact alike_refl _
    | popMatrix | matrix | hexString => exact alike_refl _

/-- A call is compiled alike with symbols that agree on the name it is about. -/
theorem alike_compile (h : t.AgreeOn names t') (hname : ∀ name ∈ c.name?, names name) :
    (c.compile t).Alike (· = ·) (c.compile t') := by
  rw [compile, compile]
  refine (alike_command h hname).bind ?_
  rintro command _ - - rfl
  exact alike_refl _

end Call

/-! ### Groups -/

namespace Group

variable {t t' : SymbolTable} {names : String → Prop}

theorem alike_compileCall {placed : PlacedCall} (h : t.AgreeOn names t')
    (hname : ∀ name ∈ placed.name?, names name) :
    (compileCall t placed).Alike (· = ·) (compileCall t' placed) := by
  refine Alike.atCall _ (.bind_same fun call hcall => ?_)
  have hcall' : placed.name? = call.name? := by
    rw [PlacedCall.name?, PlacedCall.call?, Call.parse_eq_ok_iff.mp hcall, Option.bind_some]
  refine (Call.alike_compile h (hcall' ▸ hname)).bind ?_
  rintro bytes _ - - rfl
  exact alike_refl _

theorem alike_compile {g : Group} (h : t.AgreeOn names t')
    (hnames : ∀ name ∈ g.mentioned, names name) :
    (g.compile t).Alike (· = ·) (g.compile t') := by
  have hcalls : (g.calls.mapM (compileCall t)).Alike (· = ·) (g.calls.mapM (compileCall t')) := by
    refine Alike.mapM fun placed hplaced => alike_compileCall h fun name hname => hnames name ?_
    exact List.mem_cons_of_mem _ (List.mem_filterMap.mpr ⟨placed, hplaced, hname⟩)
  rw [compile, compile]
  refine hcalls.bind ?_
  rintro compiled _ - - rfl
  exact alike_refl _

end Group

/-! ### Tables -/

namespace AliasTable

variable {t t' : SymbolTable} {names : String → Prop}

/-- Two tables have the same bytes and the same labels; their symbols may differ. -/
def SameContents (table table' : AliasTable) : Prop :=
  table.data = table'.data ∧ table.labels = table'.labels

/-- One group after another: each label is defined in both symbol tables or in neither, at the same
address, because the groups before it have come out with the same bytes. -/
theorem alike_assemble {groups : List Group} (h : t.AgreeOn names t') (address : Nat)
    (hnames : ∀ name ∈ groups.flatMap Group.mentioned, names name) :
    (assemble address t groups).Alike SameContents (assemble address t' groups) := by
  induction groups generalizing address t t' with
  | nil => exact alike_of_ok (assemble_nil address t) (assemble_nil address t') ⟨rfl, rfl⟩
  | cons g rest ih =>
    rw [List.flatMap_cons] at hnames
    have hgroup : ∀ name ∈ g.mentioned, names name := fun name hname =>
      hnames name (List.mem_append_left _ hname)
    have hrest : ∀ name ∈ rest.flatMap Group.mentioned, names name := fun name hname =>
      hnames name (List.mem_append_right _ hname)
    rw [assemble, assemble]
    refine (SymbolTable.alike_define h (hgroup _ List.mem_cons_self) address _).bind ?_
    intro extended extended' _ _ hextended
    refine .noted <| (Group.alike_compile hextended hgroup).bind ?_
    rintro code _ - - rfl
    refine (ih hextended _ hrest).bind ?_
    rintro later later' - - ⟨hdata, hlabels⟩
    exact alike_of_ok rfl rfl ⟨by rw [hdata], by rw [hlabels]⟩

theorem alike_build {pool : Pool} (header : Bytes) (h : t.AgreeOn (· ∈ pool.mentioned) t') :
    (build pool t header).Alike SameContents (build pool t' header) := by
  rw [build, build]
  refine (alike_assemble h _ fun _ hname => hname).bind ?_
  rintro groups groups' - - ⟨hdata, hlabels⟩
  dsimp only
  rw [hdata]
  split
  · exact .noted (.bind_same fun _ hfail => by cases hfail)
  · exact .noted (alike_of_ok rfl rfl ⟨rfl, hlabels⟩)

/-- **Only mentioned names matter.** With symbols that agree on the names that a pool mentions, and
whose placeholders stand for the same offset, the pool is compiled to the same bytes and labels or
is refused for the same cause on the same line. -/
theorem build_of_agreeOn {pool : Pool} (header : Bytes) (h : t.AgreeOn (· ∈ pool.mentioned) t') :
    (∃ table table', (build pool t header).result = .ok table ∧
        (build pool t' header).result = .ok table' ∧
        table.data = table'.data ∧ table.labels = table'.labels) ∨
      ∃ cause location,
        (build pool t header).result = .error (.refused ⟨cause, location⟩) ∧
        (build pool t' header).result = .error (.refused ⟨cause, location⟩) := by
  rcases alike_build header h with ⟨fault, hfault, hfault'⟩ | ⟨table, table', hok, hok', hsame⟩
  · obtain ⟨cause, location, rfl, -⟩ := failsOnly_build pool t header fault hfault
    exact .inr ⟨cause, location, hfault, hfault'⟩
  · exact .inl ⟨table, table', hok, hok', hsame⟩

/-- The symbols of the small pool among others, in another order and with another placeholder. -/
def crowdedSymbols : SymbolTable :=
  ⟨⟨[("LUT_HAND", .resolved 0x150), ("STOP", .resolved 0x71), ("DL_DF_COMMAND", .external),
    ("DL_B", .external), ("LUT_FAR", .resolved (-1))], by decide⟩, "STOP"⟩

/-- What the small pool compiles to is the same among more symbols. -/
theorem build_of_agreeOn_crowded :
    smallSymbols.AgreeOn (· ∈ smallPool.mentioned) crowdedSymbols ∧
      ∃ table, (build smallPool crowdedSymbols [0x15, 0x12]).result = .ok table ∧
        table.data = smallTable.data ∧ table.labels = smallTable.labels := by
  have hagree : smallSymbols.AgreeOn (· ∈ smallPool.mentioned) crowdedSymbols :=
    ⟨by decide +kernel, 0x71, by decide +kernel, by decide +kernel⟩
  have hbuild : (build smallPool smallSymbols [0x15, 0x12]).result = .ok smallTable := by
    decide +kernel
  refine ⟨hagree, ?_⟩
  rcases build_of_agreeOn [0x15, 0x12] hagree with
    ⟨table, table', hok, hok', hdata, hlabels⟩ | ⟨cause, location, hfault, -⟩
  · obtain rfl := Except.ok.inj (hok.symm.trans hbuild)
    exact ⟨table', hok', hdata.symm, hlabels.symm⟩
  · rw [hbuild] at hfault
    cases hfault

end AliasTable

end ModelPatch

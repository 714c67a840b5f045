import Mathlib
import ModelPatch.Manifest.Basic
import ModelPatch.Proofs.WordsAndLines

/-!
# Line numbers are only passed on

The sections of a manifest are read without a look at the numbers of their lines. These are passed
on to the locations of labels, calls and errors, and nothing else depends on them. So if all lines
of a section are shifted by the same amount, then so is what is read in them, and what they are
refused for is the same, on a line that is shifted with them.

As with two runs that come out alike, this is shown one step at a time: `Build.ShiftsTo` is kept by
steps that follow each other.

## Main definitions

* `Line.shift`, `Location.shift`, `Pool.shift`, `BuildError.shift`: line numbers shifted by an
  amount;
* `Build.ShiftsTo`: a step comes out as another one, but for a shift of the line numbers.

## Main results

* `Dictionary.shiftsTo_parse`: shifted lines define the same dictionary;
* `Pool.shiftsTo_parse`: shifted lines describe the same pool, on shifted lines.
-/

namespace ModelPatch

/-! ### Shifts -/

/-- A line further down by `k`. -/
def Line.shift (k : Int) (l : Line) : Line :=
  { l with number := l.number + k }

/-- A location further down by `k`. -/
def Location.shift (k : Int) (l : Location) : Location :=
  { l with line := l.line + k }

/-- An error on a line further down by `k`, if it is on a line. -/
def BuildError.shift (k : Int) (e : BuildError) : BuildError :=
  { e with location := e.location.map (Location.shift k) }

/-- A fault on a line further down by `k`, if it is on a line. -/
def Fault.shift (k : Int) : Fault → Fault
  | refused e => refused (e.shift k)
  | defective d => defective d

/-- A call on a line further down by `k`. -/
def PlacedCall.shift (k : Int) (placed : PlacedCall) : PlacedCall :=
  { placed with location := placed.location.shift k }

/-- A group on lines further down by `k`. -/
def Group.shift (k : Int) (g : Group) : Group :=
  { g with
    location := g.location.shift k
    calls := g.calls.map (PlacedCall.shift k) }

/-- A pool on lines further down by `k`. -/
def Pool.shift (k : Int) (pool : Pool) : Pool :=
  { pool with groups := pool.groups.map (Group.shift k) }

/-- A section on lines further down by `k`. -/
def Section.shift (k : Int) (s : Section) : Section :=
  ⟨s.header.shift k, s.body.map (Line.shift k)⟩

/-! ### Shifted steps -/

namespace Build

variable {α β γ δ : Type} {k : Int} {f : α → β} {x : Build α} {y : Build β}

/-- The step `y` comes out as `x` does, but for a shift of the line numbers by `k`, which `f` carries
out in a value. -/
def ShiftsTo (k : Int) (f : α → β) (x : Build α) (y : Build β) : Prop :=
  y.result = match x.result with
    | .ok a => .ok (f a)
    | .error fault => .error (fault.shift k)

theorem shiftsTo_of_ok {a : α} (hx : x.result = .ok a) (hy : y.result = .ok (f a)) :
    x.ShiftsTo k f y := by
  rw [ShiftsTo, hx, hy]

theorem shiftsTo_of_error {fault : Fault} (hx : x.result = .error fault)
    (hy : y.result = .error (fault.shift k)) : x.ShiftsTo k f y := by
  rw [ShiftsTo, hx, hy]

/-- Shifted steps that are followed by shifted steps are shifted together. -/
theorem ShiftsTo.bind {h : γ → δ} {g : α → Build γ} {g' : β → Build δ} (hxy : x.ShiftsTo k f y)
    (hg : ∀ a, x.result = .ok a → (g a).ShiftsTo k h (g' (f a))) :
    (x >>= g).ShiftsTo k h (y >>= g') := by
  cases hx : x.result with
  | error fault =>
    rw [ShiftsTo, hx] at hxy
    exact shiftsTo_of_error (result_bind_eq_error_iff.mpr (.inl hx))
      (result_bind_eq_error_iff.mpr (.inl hxy))
  | ok a =>
    have hrest := hg a hx
    rw [ShiftsTo, hx] at hxy
    rw [ShiftsTo, result_bind, result_bind, hx, hxy]
    exact hrest

/-- Notices do not count, so the two steps may word them differently. -/
theorem ShiftsTo.noted {h : γ → δ} {level level' : Level} {text text' : String}
    {g : Unit → Build γ} {g' : Unit → Build δ} (hg : (g ()).ShiftsTo k h (g' ())) :
    (note level text >>= g).ShiftsTo k h (note level' text' >>= g') :=
  (shiftsTo_of_ok (f := id) (result_note level text) (result_note level' text')).bind
    fun _ _ => hg

end Build

open Build

/-! ### Dictionaries -/

namespace Dictionary

/-- A line adds the same entry or is refused for the same cause, on its own line. -/
theorem shiftsTo_addLine (k : Int) (file : String) (d : Dictionary) (l : Line) :
    (addLine file d l).ShiftsTo k id (addLine file d (l.shift k)) := by
  have hcontent : (l.shift k).content = l.content := rfl
  have hempty : (l.shift k).isEmpty = l.isEmpty := rfl
  rw [addLine, addLine, hcontent, hempty]
  split
  · exact shiftsTo_of_ok rfl rfl
  · split
    · next entry _ =>
      have hreport : (d.report (l.location file) entry).ShiftsTo k id
          (d.report ((l.shift k).location file) entry) :=
        shiftsTo_of_ok (result_report d _ entry) (result_report d _ entry)
      exact hreport.bind fun _ _ => shiftsTo_of_ok rfl rfl
    · next fault _ => exact shiftsTo_of_error (result_refuse _ fault) (result_refuse _ fault)

/-- **Shifted lines define the same dictionary.** -/
theorem shiftsTo_parse (k : Int) (file : String) (lines : List Line) :
    (parse file lines).ShiftsTo k id (parse file (lines.map (Line.shift k))) := by
  rw [parse, parse]
  generalize empty = d
  induction lines generalizing d with
  | nil => exact shiftsTo_of_ok rfl rfl
  | cons l lines ih =>
    rw [List.map_cons, List.foldlM_cons, List.foldlM_cons]
    exact (shiftsTo_addLine k file d l).bind fun d' _ => ih d'

end Dictionary

/-! ### Pools -/

theorem Region.shiftsTo_parse (k : Int) (location : Location) (content : List Char) :
    (parse (some location) content).ShiftsTo k id
      (parse (some (location.shift k)) content) := by
  rw [parse, parse]
  cases ofContent? content with
  | some region => exact shiftsTo_of_ok rfl rfl
  | none => exact shiftsTo_of_error rfl rfl

namespace Group

theorem callsOf_shift (k : Int) (location : Location) (text : List Char) :
    callsOf (location.shift k) text = (callsOf location text).map (PlacedCall.shift k) := by
  rw [callsOf, callsOf, List.map_map]
  rfl

theorem shift_append_calls (k : Int) (g : Group) (calls : List PlacedCall) :
    shift k { g with calls := g.calls ++ calls } =
      { g.shift k with calls := (g.shift k).calls ++ calls.map (PlacedCall.shift k) } := by
  rw [shift, List.map_append]
  rfl

/-- Whatever group is open, a line does the same to it as the shifted line to the shifted group. -/
theorem shiftsTo_collect (k : Int) (file : String) (current : Option Group) (lines : List Line) :
    (collect file current lines).ShiftsTo k (List.map (shift k))
      (collect file (current.map (shift k)) (lines.map (Line.shift k))) := by
  induction lines generalizing current with
  | nil => cases current <;> exact shiftsTo_of_ok rfl rfl
  | cons l lines ih =>
    have hcontent : (l.shift k).content = l.content := rfl
    have hlocation : (l.shift k).location file = (l.location file).shift k := rfl
    rw [List.map_cons]
    unfold collect
    dsimp only
    rw [hcontent, hlocation]
    split
    · exact ih current
    cases cutAt ':' (Text.dropBlanks l.content) with
    | some cut =>
      obtain ⟨label, calls⟩ := cut
      cases label with
      | nil => exact shiftsTo_of_error rfl rfl
      | cons c label =>
        -- The open group is closed, and the line opens the next one.
        have hrest := ih (some ⟨String.ofList (c :: label), l.location file,
          callsOf (l.location file) calls⟩)
        dsimp only
        rw [callsOf_shift]
        refine hrest.bind fun groups _ => ?_
        refine shiftsTo_of_ok rfl ?_
        cases current <;> simp
    | none =>
      cases current with
      | some g =>
        have hrest := ih (some { g with
          calls := g.calls ++ callsOf (l.location file) (Text.dropBlanks l.content) })
        rw [Option.map_some, shift_append_calls] at hrest
        rw [callsOf_shift]
        exact hrest
      | none => exact shiftsTo_of_error rfl rfl

end Group

namespace Pool

/-- The declaration of a shifted section is the shifted declaration. -/
theorem splitDeclaration_shift (k : Int) (header : Line) (body : List Line) :
    splitDeclaration (header.shift k) (body.map (Line.shift k)) =
      (splitDeclaration header body).map fun split =>
        (split.1.shift k, split.2.map (Line.shift k)) := by
  have hempty : ∀ l : Line, (l.shift k).isEmpty = l.isEmpty := fun _ => rfl
  rw [splitDeclaration, splitDeclaration, hempty]
  split
  · have hempty' : Line.isEmpty ∘ Line.shift k = Line.isEmpty := rfl
    rw [List.dropWhile_map, hempty']
    cases List.dropWhile Line.isEmpty body <;> rfl
  · rfl

/-- **Shifted lines describe the same pool, on shifted lines.** -/
theorem shiftsTo_parse (k : Int) (file : String) (header : Line) (body : List Line) :
    (parse file header body).ShiftsTo k (shift k)
      (parse file (header.shift k) (body.map (Line.shift k))) := by
  rw [parse, parse, splitDeclaration_shift]
  cases splitDeclaration header body with
  | none => exact shiftsTo_of_error rfl rfl
  | some split =>
    obtain ⟨declaration, rest⟩ := split
    refine (Region.shiftsTo_parse k (declaration.location file) _).bind fun region _ => .noted ?_
    exact (Group.shiftsTo_collect k file none rest).bind fun groups _ => shiftsTo_of_ok rfl rfl

end Pool

end ModelPatch

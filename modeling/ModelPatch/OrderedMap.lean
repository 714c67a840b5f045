/-!
# Maps in order of definition

Dictionaries, trailers and symbol tables are listed in the order in which their names first came
up, and a name that comes up again changes its value but not its place.

## Main definitions

* `OrderedMap`: a list of names with values in which no name occurs twice;
* `OrderedMap.get?`, `OrderedMap.insert`, `OrderedMap.keys`, `OrderedMap.ofList`.

## Main results

* `OrderedMap.get?_insert`: an insertion decides one name and leaves all others alone;
* `OrderedMap.keys_insert`: a name that is new comes last, and a known one stays where it is.
-/

namespace ModelPatch

variable {α β : Type}

/-- Names with values, in order of definition. -/
structure OrderedMap (α : Type) where
  /-- The names and their values. -/
  entries : List (String × α)
  /-- No name occurs twice. -/
  nodup : (entries.map Prod.fst).Nodup
  deriving DecidableEq

namespace OrderedMap

/-- The map without names. -/
def empty : OrderedMap α :=
  ⟨[], by simp⟩

instance : Inhabited (OrderedMap α) :=
  ⟨empty⟩

/-- The names, in order of definition. -/
def keys (m : OrderedMap α) : List String :=
  m.entries.map Prod.fst

/-- The values, in order of definition of their names. -/
def values (m : OrderedMap α) : List α :=
  m.entries.map Prod.snd

/-- The number of names. -/
def size (m : OrderedMap α) : Nat :=
  m.entries.length

/-- The value of a name. -/
def get? (m : OrderedMap α) (name : String) : Option α :=
  m.entries.lookup name

/-- Whether a name is defined. -/
def contains (m : OrderedMap α) (name : String) : Bool :=
  (m.get? name).isSome

/-! ### Insertion -/

/-- The list with the value of `name` replaced, or with `name` added at the end. -/
def upsert (name : String) (value : α) : List (String × α) → List (String × α)
  | [] => [(name, value)]
  | p :: ps => if p.1 = name then (name, value) :: ps else p :: upsert name value ps

theorem map_fst_upsert (name : String) (value : α) (ps : List (String × α)) :
    (upsert name value ps).map Prod.fst =
      if name ∈ ps.map Prod.fst then ps.map Prod.fst else ps.map Prod.fst ++ [name] := by
  induction ps with
  | nil => rfl
  | cons p ps ih =>
    by_cases h : p.1 = name
    · simp [upsert, h]
    · have h' : ¬name = p.1 := fun e => h e.symm
      simp only [upsert, h, if_false, List.map_cons, ih, List.mem_cons, h', false_or]
      split <;> simp

/-- The map in which `name` has the value `value`. -/
def insert (m : OrderedMap α) (name : String) (value : α) : OrderedMap α where
  entries := upsert name value m.entries
  nodup := by
    rw [map_fst_upsert]
    split
    · exact m.nodup
    · rename_i h
      rw [List.nodup_append]
      exact ⟨m.nodup, by simp, by rintro a ha b hb rfl; simp_all⟩

/-- The map that arises from inserting the pairs in order. -/
def ofList (ps : List (String × α)) : OrderedMap α :=
  ps.foldl (fun m p => m.insert p.1 p.2) empty

/-- The map with every value replaced by its image. -/
def mapValues (f : α → β) (m : OrderedMap α) : OrderedMap β where
  entries := m.entries.map fun p => (p.1, f p.2)
  nodup := by
    rw [List.map_map]
    exact m.nodup

/-! ### Keys and values after an insertion -/

theorem keys_insert (m : OrderedMap α) (name : String) (value : α) :
    (m.insert name value).keys = if name ∈ m.keys then m.keys else m.keys ++ [name] :=
  map_fst_upsert name value m.entries

theorem lookup_upsert (name other : String) (value : α) (ps : List (String × α)) :
    (upsert name value ps).lookup other =
      if other = name then some value else ps.lookup other := by
  induction ps with
  | nil =>
    by_cases h : other = name
    · simp [upsert, h]
    · simp [upsert, List.lookup_cons, h, beq_eq_false_iff_ne.mpr h]
  | cons p ps ih =>
    obtain ⟨key, old⟩ := p
    by_cases hk : key = name
    · subst hk
      by_cases h : other = key
      · simp [upsert, h]
      · simp [upsert, List.lookup_cons, h, beq_eq_false_iff_ne.mpr h]
    · by_cases h : other = key
      · subst h
        simp [upsert, hk]
      · simp [upsert, List.lookup_cons, hk, beq_eq_false_iff_ne.mpr h, ih]

theorem get?_insert (m : OrderedMap α) (name other : String) (value : α) :
    (m.insert name value).get? other = if other = name then some value else m.get? other :=
  lookup_upsert name other value m.entries

theorem upsert_eq_append {name : String} {value : α} {ps : List (String × α)}
    (h : ps.lookup name = none) : upsert name value ps = ps ++ [(name, value)] := by
  induction ps with
  | nil => rfl
  | cons p ps ih =>
    rw [List.lookup_cons] at h
    split at h
    · cases h
    · next hne =>
      have hkey : p.1 ≠ name := fun heq => by simp [heq] at hne
      rw [upsert, if_neg hkey, ih h, List.cons_append]

/-- A name that is new comes last. -/
theorem entries_insert {m : OrderedMap α} {name : String} {value : α} (h : m.get? name = none) :
    (m.insert name value).entries = m.entries ++ [(name, value)] :=
  upsert_eq_append h

@[simp] theorem get?_empty (name : String) : (empty : OrderedMap α).get? name = none := rfl

end OrderedMap

end ModelPatch

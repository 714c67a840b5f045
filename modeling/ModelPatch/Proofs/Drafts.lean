import Mathlib
import ModelPatch.Manifest.Basic
import ModelPatch.Proofs.WordsAndLines

/-!
# Drafts of manifests

What a manifest is written from, and the lines on which it is written: one for each entry, label and
call. Comments, quotes, colons, semicolons and section ends are all found by looking at characters,
so what is written must not hold those that would be found too early. Nothing else is asked for: a
label may be called `END` or `DICTIONARY`, and a quoted name may begin with a space or a slash.

## Main definitions

* `Draft`: what a manifest is written from;
* `Draft.IsWritable`: when it can be written;
* `Draft.lines`: the lines of the manifest;
* `Draft.placed`: the groups with the numbers of the lines on which they are written.

## Implementation notes

Whether a draft can be written is decidable, so that it can be evaluated for a given draft.
-/

namespace ModelPatch

/-! ### The dictionary -/

/-- A text that can stand between quotes. -/
structure Text.IsQuotable (cs : List Char) : Prop where
  /-- No quote cuts it short. -/
  quoteFree : '"' ∉ cs
  /-- No comment starts in it. -/
  commentFree : ¬ ['/', '/'] <:+: cs
  /-- Its blanks are spaces. -/
  spaces : ∀ c ∈ cs, isBlank c = true → c = ' '
  /-- No space stands next to another. -/
  single : ¬ [' ', ' '] <:+: cs

instance (cs : List Char) : Decidable (Text.IsQuotable cs) :=
  decidable_of_iff ('"' ∉ cs ∧ ¬ ['/', '/'] <:+: cs ∧
      (cs.all fun c => !isBlank c || c == ' ') = true ∧ ¬ [' ', ' '] <:+: cs)
    ⟨fun h => ⟨h.1, h.2.1, by simpa [← Bool.not_eq_true, imp_iff_not_or] using h.2.2.1, h.2.2.2⟩,
      fun h => ⟨h.quoteFree, h.commentFree,
        by simpa [← Bool.not_eq_true, imp_iff_not_or] using h.spaces, h.single⟩⟩

namespace Entry

/-- The line on which an entry is written. -/
def line : Entry → List Char
  | .literal name offset => name.toList ++ ' ' :: (Hex.showNat offset).toList
  | .bankAlias quoted name =>
    name.toList ++ ' ' :: ("BANK".toList ++ ' ' :: '"' :: (quoted.toList ++ ['"']))

/-- An entry that can be written. -/
def IsWritable : Entry → Prop
  | .literal name _ => Text.IsWord name.toList ∧ ¬ "DL_".toList <+: name.toList
  | .bankAlias quoted name =>
    Text.IsWord name.toList ∧ "DL_".toList <+: name.toList ∧ Text.IsQuotable quoted.toList

instance : (e : Entry) → Decidable e.IsWritable
  | .literal _ _ => inferInstanceAs (Decidable (_ ∧ _))
  | .bankAlias _ _ => inferInstanceAs (Decidable (_ ∧ _))

/-- The name and the offset of a literal entry. -/
def literal? : Entry → Option (String × Nat)
  | .literal name offset => some (name, offset)
  | .bankAlias _ _ => none

/-- The quoted name and the name of a bank alias. -/
def bankAlias? : Entry → Option (String × String)
  | .literal _ _ => none
  | .bankAlias quoted name => some (quoted, name)

end Entry

/-! ### The pool -/

/-- What stands behind the keyword on the line that declares a region. -/
def Region.declaration (r : Region) : List Char :=
  '=' :: ((Hex.showNat r.offset).toList ++ ',' :: (Hex.showNat r.size).toList)

/-- The line that declares a region. -/
def Region.line (r : Region) : List Char :=
  "OBJECT POOL".toList ++ r.declaration

/-- A label and the calls behind it. -/
structure DraftGroup where
  /-- The label. -/
  label : String
  /-- The texts of the calls. -/
  calls : List (List Char)

namespace DraftGroup

/-- The lines on which a group is written: the label, and each of the calls. -/
def lines (g : DraftGroup) : List (List Char) :=
  (g.label.toList ++ [':']) :: g.calls.map (· ++ [';'])

/-- A text that can stand as a call. -/
structure IsCall (call : List Char) : Prop extends Text.IsWord call where
  /-- It is no label. -/
  colonFree : ':' ∉ call
  /-- No semicolon cuts it short. -/
  semicolonFree : ';' ∉ call

instance (call : List Char) : Decidable (IsCall call) :=
  decidable_of_iff (Text.IsWord call ∧ ':' ∉ call ∧ ';' ∉ call)
    ⟨fun h => ⟨h.1, h.2.1, h.2.2⟩, fun h => ⟨h.toIsWord, h.colonFree, h.semicolonFree⟩⟩

/-- A group that can be written. -/
structure IsWritable (g : DraftGroup) : Prop where
  /-- The label is a word. -/
  label : Text.IsWord g.label.toList
  /-- No colon cuts the label short. -/
  colonFree : ':' ∉ g.label.toList
  /-- The calls can be written. -/
  calls : ∀ call ∈ g.calls, IsCall call

instance (g : DraftGroup) : Decidable g.IsWritable :=
  decidable_of_iff
    (Text.IsWord g.label.toList ∧ ':' ∉ g.label.toList ∧ ∀ call ∈ g.calls, IsCall call)
    ⟨fun h => ⟨h.1, h.2.1, h.2.2⟩, fun h => ⟨h.label, h.colonFree, h.calls⟩⟩

end DraftGroup

/-! ### Drafts -/

/-- What a manifest is written from. -/
structure Draft where
  /-- The entries of the dictionary. -/
  entries : List Entry
  /-- Where the pool is. -/
  region : Region
  /-- What goes into it. -/
  groups : List DraftGroup

namespace Draft

/-- The literal entries. -/
def literals (d : Draft) : List (String × Nat) :=
  d.entries.filterMap Entry.literal?

/-- The bank aliases. -/
def bankAliases (d : Draft) : List (String × String) :=
  d.entries.filterMap Entry.bankAlias?

/-- A draft that can be written. -/
structure IsWritable (d : Draft) : Prop where
  /-- Each entry can be written. -/
  entries : ∀ e ∈ d.entries, e.IsWritable
  /-- No two literal entries have the same name. -/
  literals : (d.literals.map Prod.fst).Nodup
  /-- No two bank aliases have the same quoted name. -/
  bankAliases : (d.bankAliases.map Prod.fst).Nodup
  /-- The offset of the pool is not taken for an address. -/
  untagged : d.region.offset / Segment.size ≠ Segment.id
  /-- Each group can be written. -/
  groups : ∀ g ∈ d.groups, g.IsWritable

instance (d : Draft) : Decidable d.IsWritable :=
  decidable_of_iff ((∀ e ∈ d.entries, e.IsWritable) ∧ (d.literals.map Prod.fst).Nodup ∧
      (d.bankAliases.map Prod.fst).Nodup ∧ d.region.offset / Segment.size ≠ Segment.id ∧
        ∀ g ∈ d.groups, g.IsWritable)
    ⟨fun h => ⟨h.1, h.2.1, h.2.2.1, h.2.2.2.1, h.2.2.2.2⟩,
      fun h => ⟨h.entries, h.literals, h.bankAliases, h.untagged, h.groups⟩⟩

/-- The lines of a manifest. -/
def lines (d : Draft) : List (List Char) :=
  "DICTIONARY".toList :: (d.entries.map Entry.line ++
    "END".toList :: d.region.line :: (d.groups.flatMap DraftGroup.lines ++ ["END".toList]))

/-- Calls that are written one on each line, from a line on. -/
def placedCalls (file : String) (first : Nat) : List (List Char) → List PlacedCall
  | [] => []
  | call :: rest => ⟨call, file, first⟩ :: placedCalls file (first + 1) rest

/-- Groups that are written one behind the other, from a line on. -/
def placedGroups (file : String) (first : Nat) : List DraftGroup → List Group
  | [] => []
  | g :: rest =>
    ⟨g.label, ⟨file, first⟩, placedCalls file (first + 1) g.calls⟩ ::
      placedGroups file (first + g.lines.length) rest

/-- The groups of a draft on the lines on which they are written: the first label stands behind the
keyword of the dictionary, its entries, its end, and the declaration of the pool. -/
def placed (file : String) (d : Draft) : List Group :=
  placedGroups file (d.entries.length + 4) d.groups

end Draft

end ModelPatch

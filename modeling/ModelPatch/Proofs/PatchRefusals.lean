import Mathlib
import ModelPatch.Proofs.PatchStages
import ModelPatch.Proofs.Refusals
import ModelPatch.Proofs.TrailerRecords

/-!
# A build has no defects

Assets and manifests come from outside, and a build reads through pointers that it finds in them. It
goes through its steps here in the order in which it takes them, and each of them turns out to
succeed or to be refused. Most steps have no other way to fail. Those that do are the reads of the
trailer, the reads of the skeleton search and the setting of the branch flag; for each there is a
guard in front, and what is shown is that the guard is enough.

## Main results

* `Trailer.failsOnly_parse`: the guards of the trailer leave room for every read;
* `Manifest.failsOnly_parse`: any text is a manifest or is refused;
* `Group.failsOnly_compile`, `AliasTable.failsOnly_build`: the table is compiled or refused;
* `Patch.build_ok_or_refused`: any build succeeds or is refused.
-/

namespace ModelPatch

open Build

/-! ### The asset -/

namespace Trailer

theorem failsOnly_records (asset : String) (declared remaining : Nat) (seen : Trailer)
    (bytes : Bytes) : (records asset declared remaining seen bytes).FailsOnly Fault.IsRefusal := by
  induction remaining generalizing seen bytes with
  | zero => exact failsOnly_pure seen
  | succ remaining ih =>
    rw [records]
    cases hcut : cutName? bytes with
    | none => exact failsOnly_refuse trivial
    | some cut =>
      obtain ⟨spelled, rest⟩ := cut
      have hroom : 4 ≤ rest.length := (cutName?_eq_some_iff.mp hcut).2.2
      have hread : (Bytes.word? rest 0).isSome := Bytes.word?_isSome_of_le (by omega)
      exact (failsOnly_need hread).bind fun offset _ => .noted (ih _ _)

theorem failsOnly_parseAt (name : String) (start : Nat) (asset : Bytes) :
    (parseAt name start asset).FailsOnly Fault.IsRefusal := by
  rw [parseAt]
  split
  · exact failsOnly_refuse trivial
  · next hroom =>
    have hread : (Bytes.half? asset (start + countDistance)).isSome := by
      rw [Bytes.half?, Option.isSome_map]
      exact Bytes.slice?_isSome_of_le (by omega)
    exact (failsOnly_need hread).bind fun count _ => .noted (failsOnly_records name count count _ _)

/-- The guards of the trailer leave room for every read. -/
theorem failsOnly_parse (name : String) (asset : Bytes) :
    (parse name asset).FailsOnly Fault.IsRefusal := by
  rw [parse]
  cases find? asset with
  | none => exact .noted (failsOnly_refuse trivial)
  | some start => exact failsOnly_parseAt name start asset

end Trailer

theorem Skeleton.failsOnly_locate (name : String) (asset : Bytes) :
    (locate name asset).FailsOnly Fault.IsRefusal := by
  rw [locate]
  refine (failsOnly_of_ok (result_find asset)).bind fun found _ => ?_
  cases found with
  | none => exact .noted (failsOnly_refuse trivial)
  | some offset => exact .noted (failsOnly_pure _)

/-! ### The manifest -/

theorem Section.failsOnly_find (file keyword : String) (lines : List Line) :
    (find file keyword lines).FailsOnly Fault.IsRefusal := by
  rw [find]
  split
  · exact failsOnly_refuse trivial
  · split
    · exact failsOnly_pure _
    · exact failsOnly_refuse trivial

namespace Dictionary

theorem failsOnly_refuse_line {α : Type} (location : Location) (fault : Malformed) :
    (refuse location fault : Build α).FailsOnly Fault.IsRefusal := by
  unfold refuse
  split
  · exact .noted (failsOnly_refuse trivial)
  · exact failsOnly_refuse trivial

theorem failsOnly_addLine (file : String) (d : Dictionary) (l : Line) :
    (addLine file d l).FailsOnly Fault.IsRefusal := by
  rw [addLine]
  split
  · exact failsOnly_pure d
  · split
    · next entry _ =>
      exact (failsOnly_of_ok (result_report d _ entry)).bind fun _ _ => failsOnly_pure _
    · next fault _ => exact failsOnly_refuse_line _ fault

theorem failsOnly_parse (file : String) (lines : List Line) :
    (parse file lines).FailsOnly Fault.IsRefusal :=
  .foldlM (failsOnly_addLine file) lines empty

end Dictionary

theorem Region.failsOnly_parse (location : Option Location) (content : List Char) :
    (parse location content).FailsOnly Fault.IsRefusal := by
  rw [parse]
  cases ofContent? content with
  | some region => exact failsOnly_pure region
  | none => exact failsOnly_refuse trivial

/-- Whatever group is open, a line extends it, closes it or is refused. -/
theorem Group.failsOnly_collect (file : String) (current : Option Group) (lines : List Line) :
    (collect file current lines).FailsOnly Fault.IsRefusal := by
  induction lines generalizing current with
  | nil => exact failsOnly_pure _
  | cons l rest ih =>
    unfold collect
    dsimp only
    split
    · exact ih current
    · split
      · exact failsOnly_refuse trivial
      · exact (ih _).bind fun groups _ => failsOnly_pure _
      · exact ih _
      · exact failsOnly_refuse trivial

theorem Pool.failsOnly_parse (file : String) (header : Line) (body : List Line) :
    (parse file header body).FailsOnly Fault.IsRefusal := by
  rw [parse]
  cases splitDeclaration header body with
  | none => exact failsOnly_refuse trivial
  | some split =>
    obtain ⟨declaration, rest⟩ := split
    refine (Region.failsOnly_parse _ _).bind fun region _ => .noted ?_
    exact (Group.failsOnly_collect file none rest).bind fun groups _ => failsOnly_pure _

namespace Manifest

theorem failsOnly_ofLines (file : String) (lines : List Line) :
    (ofLines file lines).FailsOnly Fault.IsRefusal := by
  rw [ofLines]
  refine (Section.failsOnly_find file _ lines).bind fun names _ => ?_
  refine (Dictionary.failsOnly_parse file _).bind fun dictionary _ => ?_
  refine (Section.failsOnly_find file _ lines).bind fun calls _ => ?_
  exact (Pool.failsOnly_parse file _ _).bind fun pool _ => .noted (failsOnly_pure _)

/-- Any text is a manifest or is refused. -/
theorem failsOnly_parse (file : String) (source : Source) :
    (parse file source).FailsOnly Fault.IsRefusal :=
  failsOnly_ofLines file _

end Manifest

/-! ### The table -/

theorem SymbolTable.failsOnly_define (t : SymbolTable) (name : String) (offset : Int)
    (location : Option Location) :
    (t.define name offset location).FailsOnly Fault.IsRefusal := by
  rw [define]
  split
  · exact .noted (failsOnly_refuse trivial)
  · exact failsOnly_pure _

/-- A group is compiled or one of its calls is refused: the branch flag always finds its byte. -/
theorem Group.failsOnly_compile (t : SymbolTable) (g : Group) :
    (g.compile t).FailsOnly Fault.IsRefusal := by
  intro fault hfault
  rcases result_bind_eq_error_iff.mp hfault with hcalls | ⟨compiled, hcompiled, -⟩
  · exact FailsOnly.mapM (failsOnly_compileCall t) g.calls fault hcalls
  · have hcompiles := mapM_compileCall_eq_ok_iff.mp hcompiled
    rw [compile_eq_ok_iff.mpr ⟨compiled, hcompiles, rfl⟩] at hfault
    cases hfault

namespace AliasTable

theorem failsOnly_assemble (address : Nat) (t : SymbolTable) (groups : List Group) :
    (assemble address t groups).FailsOnly Fault.IsRefusal := by
  induction groups generalizing address t with
  | nil => exact failsOnly_pure _
  | cons g rest ih =>
    rw [assemble]
    refine (SymbolTable.failsOnly_define t _ _ _).bind fun extended _ => .noted ?_
    refine (Group.failsOnly_compile extended g).bind fun code _ => ?_
    exact (ih _ _).bind fun later _ => failsOnly_pure _

theorem failsOnly_build (pool : Pool) (t : SymbolTable) (header : Bytes) :
    (build pool t header).FailsOnly Fault.IsRefusal := by
  rw [build]
  refine (failsOnly_assemble _ t _).bind fun groups _ => ?_
  dsimp only
  split
  · refine .noted (.bind ?_ fun _ _ => .noted (failsOnly_pure _))
    exact failsOnly_refuse trivial
  · exact .noted (failsOnly_pure _)

end AliasTable

/-! ### The patch -/

namespace Patch

theorem failsOnly_overlay (body table : Bytes) (offset : Int) :
    (overlay body table offset).FailsOnly Fault.IsRefusal := by
  rw [overlay]
  dsimp only
  split
  · refine .noted (.bind ?_ fun _ _ => failsOnly_pure _)
    exact failsOnly_refuse trivial
  · exact failsOnly_pure _

theorem failsOnly_build (source : Manifest.Source) (asset : Bytes)
    (name file placeholder : String) :
    (build source asset name file placeholder).FailsOnly Fault.IsRefusal := by
  rw [build]
  refine (Trailer.failsOnly_parse name asset).bind fun trailer _ => ?_
  refine (Skeleton.failsOnly_locate name asset).bind fun skeleton _ => .noted ?_
  refine (Manifest.failsOnly_parse file source).bind fun manifest _ => ?_
  refine (failsOnly_of_ok (SymbolTable.ofSources_eq_ok_iff.mpr rfl)).bind fun symbols _ => ?_
  refine (AliasTable.failsOnly_build _ symbols _).bind fun table _ => ?_
  exact (failsOnly_overlay _ _ _).bind fun output _ => .noted (failsOnly_pure _)

/-- **A build has no defects.** Whatever the manifest, the asset, the names and the placeholder, a
build yields a patch or is refused for one of the seven particular sorts of cause. No read goes
outside the asset, no number is too large for its field, and no write misses the table. -/
theorem build_ok_or_refused (source : Manifest.Source) (asset : Bytes)
    (name file placeholder : String) :
    (∃ p, (build source asset name file placeholder).result = .ok p) ∨
      ∃ cause location, (build source asset name file placeholder).result =
        .error (.refused ⟨cause, location⟩) ∧ cause.IsParticular :=
  (failsOnly_build source asset name file placeholder).ok_or_refused

end Patch

end ModelPatch

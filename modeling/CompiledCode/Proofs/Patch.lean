import CompiledCode.Patch.Apply

/-!
# Patching and erasing

A list of patches overwrites the same bytes whatever the code holds, so that code which differs
there alone ends up the same. Applying a plan goes over the sites that erasing goes over, in the
same order and with the same widths, up to where it is refused. Erasing therefore overwrites
everything that applying has written, even if sites overlap, and code that was patched somewhere
else can be erased and patched anew as if it never had been.
-/

namespace CompiledCode

namespace Patch

/-- Whether running patches on code of a length writes to an index. -/
def Touches (length : Nat) : List Patch → Nat → Prop
  | [], _ => False
  | .refuse _ :: _, _ => False
  | .write offset content :: rest, i =>
    offset + content.length ≤ length ∧
      (offset ≤ i ∧ i < offset + content.length ∨ Touches length rest i)

variable {patches others : List Patch} {code other : Bytes} {length i : Nat}

/-- Bytes that are not written to stay as they are. -/
theorem getElem?_runAll (h : ¬ Touches code.length patches i) :
    (runAll patches code).code[i]? = code[i]? := by
  induction patches generalizing code with
  | nil => rfl
  | cons patch rest ih =>
    cases patch with
    | refuse cause => simp [runAll, run]
    | write offset content =>
      by_cases hfits : offset + content.length ≤ code.length
      · simp only [Touches, hfits, true_and, not_or] at h
        obtain ⟨hout, hrest⟩ := h
        simp only [runAll, run, if_pos hfits]
        rw [ih (by rw [Bytes.length_overwrite hfits]; exact hrest),
          Bytes.getElem?_overwrite hfits, if_neg hout]
      · simp [runAll, run, hfits]

/-- Where patching stops, and why, is up to the length of the code. -/
theorem stopped_runAll (h : code.length = other.length) :
    (runAll patches code).stopped = (runAll patches other).stopped := by
  induction patches generalizing code other with
  | nil => rfl
  | cons patch rest ih =>
    cases patch with
    | refuse cause => simp [runAll, run]
    | write offset content =>
      by_cases hfits : offset + content.length ≤ code.length
      · have hfits' : offset + content.length ≤ other.length := h ▸ hfits
        simp only [runAll, run, if_pos hfits, if_pos hfits']
        exact ih (by rw [Bytes.length_overwrite hfits, Bytes.length_overwrite hfits', h])
      · simp [runAll, run, hfits, ← h]

/-- Code that differs only where patches write ends up the same. -/
theorem runAll_congr (hlength : code.length = other.length)
    (h : ∀ i, ¬ Touches code.length patches i → code[i]? = other[i]?) :
    runAll patches code = runAll patches other := by
  induction patches generalizing code other with
  | nil => rw [List.ext_getElem? fun i => h i id]
  | cons patch rest ih =>
    cases patch with
    | refuse cause => rw [List.ext_getElem? fun i => h i id]
    | write offset content =>
      by_cases hfits : offset + content.length ≤ code.length
      · have hfits' : offset + content.length ≤ other.length := hlength ▸ hfits
        simp only [runAll, run, if_pos hfits, if_pos hfits']
        refine ih ?_ fun i hi => ?_
        · rw [Bytes.length_overwrite hfits, Bytes.length_overwrite hfits', hlength]
        · rw [Bytes.length_overwrite hfits] at hi
          rw [Bytes.getElem?_overwrite hfits, Bytes.getElem?_overwrite hfits']
          split
          · rfl
          · rename_i hout
            exact h i fun htouched => htouched.2.elim hout hi
      · rw [List.ext_getElem? fun i => h i fun htouched => hfits htouched.1]

/-- Whether patches write to the sites of others in turn, until one of them is refused. -/
inductive Retraces : List Patch → List Patch → Prop where
  /-- There is no site left. -/
  | nil : Retraces [] []
  /-- The patches stop here. -/
  | refuse (cause : Cause) (rest others : List Patch) : Retraces (.refuse cause :: rest) others
  /-- Both write to the same site. -/
  | write (offset : Nat) {content content' : Bytes} {rest others : List Patch}
      (hwidth : content.length = content'.length) (hrest : Retraces rest others) :
    Retraces (.write offset content :: rest) (.write offset content' :: others)

/-- One list of sites after the other is gone over in turn. -/
theorem Retraces.append {later others' : List Patch} (h : Retraces patches others)
    (hlater : Retraces later others') : Retraces (patches ++ later) (others ++ others') := by
  induction h with
  | nil => exact hlater
  | refuse cause rest others => exact .refuse cause (rest ++ later) (others ++ others')
  | write offset hwidth _ ih => exact .write offset hwidth ih

/-- Sites that are listed for each of some inputs are gone over if those of each input are. -/
theorem Retraces.flatMap {α : Type} (inputs : List α) {f g : α → List Patch}
    (h : ∀ input, Retraces (f input) (g input)) :
    Retraces (inputs.flatMap f) (inputs.flatMap g) := by
  induction inputs with
  | nil => exact .nil
  | cons input rest ih => exact (h input).append ih

/-- Patches write to nothing but what those write to whose sites they go over. -/
theorem Retraces.touches (h : Retraces patches others) (hi : Touches length patches i) :
    Touches length others i := by
  induction h with
  | nil => exact hi
  | refuse => exact hi.elim
  | write offset hwidth _ ih =>
    simp only [Touches, hwidth] at hi ⊢
    exact ⟨hi.1, hi.2.imp_right ih⟩

/-- Patches that all go in write to everything that those write to whose sites they go over. -/
theorem Retraces.touches_of_complete (h : Retraces patches others)
    (hcomplete : (runAll patches code).stopped = none) (hi : Touches code.length others i) :
    Touches code.length patches i := by
  induction h generalizing code with
  | nil => exact hi
  | refuse => simp [runAll, run] at hcomplete
  | @write offset content content' rest others hwidth _ ih =>
    by_cases hfits : offset + content.length ≤ code.length
    · simp only [runAll, run, if_pos hfits] at hcomplete
      have hlength := Bytes.length_overwrite hfits
      simp only [Touches, ← hwidth] at hi ⊢
      exact ⟨hfits, hi.2.imp_right fun hrest => hlength ▸ ih hcomplete (hlength.symm ▸ hrest)⟩
    · simp [runAll, run, hfits] at hcomplete

/-- If patches all go in then so do those whose sites they go over. -/
theorem Retraces.complete (h : Retraces patches others)
    (hcomplete : (runAll patches code).stopped = none) : (runAll others code).stopped = none := by
  induction h generalizing code with
  | nil => exact hcomplete
  | refuse => simp [runAll, run] at hcomplete
  | @write offset content content' rest others hwidth _ ih =>
    by_cases hfits : offset + content.length ≤ code.length
    · have hfits' : offset + content'.length ≤ code.length := hwidth ▸ hfits
      simp only [runAll, run, if_pos hfits, if_pos hfits'] at hcomplete ⊢
      refine (stopped_runAll ?_).trans (ih hcomplete)
      rw [Bytes.length_overwrite hfits', Bytes.length_overwrite hfits]
    · simp [runAll, run, hfits] at hcomplete

end Patch

namespace PatchPlan

/-- Applying a reference within the code writes to its site, or is refused. -/
theorem retraces_internal (patch : InternalPatch) (base length : Nat) :
    Patch.Retraces [patch.applied base length] [patch.erased] := by
  rw [InternalPatch.applied, InternalPatch.erased]
  split
  · exact .refuse _ _ _
  · cases patch.encoding with
    | absolute => exact .write _ (by simp [Encoding.width]) .nil
    | relative32 =>
      dsimp only
      split
      · exact .write _ (by simp [Encoding.width]) .nil
      · exact .refuse _ _ _

/-- Applying the references to a symbol writes to their sites, or is refused. -/
theorem retraces_symbol (resolve : SymbolTable) (symbol : RuntimeSymbol) (sites : List Nat) :
    Patch.Retraces (symbolPatches resolve symbol sites)
      (sites.map (.write · (littleEndian 8 symbolPlaceholder))) := by
  rw [symbolPatches]
  cases sites with
  | nil => exact .nil
  | cons site rest =>
    cases resolve symbol with
    | none => exact .refuse _ _ _
    | some address =>
      simp only [List.isEmpty_cons, Bool.false_eq_true, if_false]
      generalize site :: rest = sites
      induction sites with
      | nil => exact .nil
      | cons site rest ih => exact .write _ (by simp) ih

/-- Applying a plan goes over the sites that erasing it goes over. -/
theorem retraces (plan : PatchPlan) (base length : Nat) (resolve : SymbolTable) :
    Patch.Retraces (plan.applied base length resolve) plan.erased := by
  have hinternal := Patch.Retraces.flatMap plan.internal
    fun patch => retraces_internal patch base length
  simp only [← List.map_eq_flatMap] at hinternal
  exact hinternal.append (.flatMap _ fun symbol => retraces_symbol resolve symbol _)

/-- What applying has done, erasing undoes: it ends as it would have without. -/
theorem erase_apply (plan : PatchPlan) (base : Nat) (symbols : SymbolTable)
    (trapHandler : Option UInt64) (code : Bytes) :
    plan.erase (plan.apply base symbols trapHandler code).code = plan.erase code := by
  refine Patch.runAll_congr (plan.length_apply ..) fun i hi => ?_
  rw [length_apply] at hi
  exact Patch.getElem?_runAll fun htouched => hi ((plan.retraces ..).touches htouched)

/-- What has been erased stays erased. -/
theorem erase_erase (plan : PatchPlan) (code : Bytes) :
    plan.erase (plan.erase code).code = plan.erase code := by
  have hlength : (plan.erase code).code.length = code.length := Patch.length_runAll _ _
  refine Patch.runAll_congr hlength fun i hi => ?_
  rw [hlength] at hi
  exact Patch.getElem?_runAll hi

/-- A plan that can be applied can be erased. -/
theorem complete_erase_of_apply {plan : PatchPlan} {base : Nat} {symbols : SymbolTable}
    {trapHandler : Option UInt64} {code : Bytes}
    (h : (plan.apply base symbols trapHandler code).stopped = none) : (plan.erase code).stopped = none :=
  (plan.retraces ..).complete h

/-- Erasing leaves nothing for applying to overwrite that it would not overwrite anyway. -/
theorem apply_erase {plan : PatchPlan} {base : Nat} {symbols : SymbolTable}
    {trapHandler : Option UInt64} {code : Bytes}
    (h : (plan.apply base symbols trapHandler code).stopped = none) :
    plan.apply base symbols trapHandler (plan.erase code).code =
      plan.apply base symbols trapHandler code := by
  have hlength : (plan.erase code).code.length = code.length := Patch.length_runAll _ _
  rw [apply, apply, hlength]
  refine Patch.runAll_congr hlength fun i hi => ?_
  rw [hlength] at hi
  exact Patch.getElem?_runAll fun htouched => hi ((plan.retraces ..).touches_of_complete h htouched)

/-- Whatever applying a plan does, erasing it from the result is erasing it from the code. If it can
be applied then it can be erased, which gives back code that holds its placeholders. Code that was
patched for one address and erased is patched for another one as it would have been in the
first place. -/
theorem patches_form_algebra (plan : PatchPlan) (code : Bytes) (base base' : Nat)
    (symbols symbols' : SymbolTable) (trapHandler trapHandler' : Option UInt64) :
    plan.erase (plan.apply base symbols trapHandler code).code = plan.erase code ∧
    ((plan.apply base symbols trapHandler code).stopped = none →
      (plan.erase (plan.apply base symbols trapHandler code).code).stopped = none ∧
        ((plan.erase code).code = code →
          plan.erase (plan.apply base symbols trapHandler code).code = { code })) ∧
    ((plan.apply base' symbols' trapHandler' code).stopped = none →
      plan.apply base' symbols' trapHandler'
          (plan.erase (plan.apply base symbols trapHandler code).code).code =
        plan.apply base' symbols' trapHandler' code) := by
  rw [erase_apply]
  refine ⟨rfl, fun hcomplete => ?_, apply_erase⟩
  have herased := complete_erase_of_apply hcomplete
  refine ⟨herased, fun hsame => ?_⟩
  cases hpatched : plan.erase code with
  | mk left stopped =>
    rw [hpatched] at hsame herased
    rw [← herased, ← hsame]

/-- Patches of an address and a displacement that share two bytes. -/
def overlapping : PatchPlan where
  internal := [{ site := 0, target := 8 }, { site := 6, target := 2, encoding := .relative32 }]

/-- Code that holds the placeholders of overlapping patches is given back by erasing and can be
patched for another address then. -/
theorem patches_form_algebra_overlapping :
    let code : Bytes := [8, 0, 0, 0, 0, 0, 2, 0, 0, 0]
    (overlapping.apply 0x1000 .empty none code).stopped = none ∧
      (overlapping.apply 0x1000 .empty none code).code ≠ code ∧
      overlapping.erase (overlapping.apply 0x1000 .empty none code).code = { code } ∧
      overlapping.apply 0x2000 .empty none
          (overlapping.erase (overlapping.apply 0x1000 .empty none code).code).code =
        overlapping.apply 0x2000 .empty none code := by
  intro code
  have halgebra := overlapping.patches_form_algebra code 0x1000 0x2000 .empty .empty none none
  have hcomplete : (overlapping.apply 0x1000 .empty none code).stopped = none := by decide
  have hsame : (overlapping.erase code).code = code := by decide
  exact ⟨hcomplete, by decide, (halgebra.2.1 hcomplete).2 hsame, halgebra.2.2 (by decide)⟩

end PatchPlan

end CompiledCode

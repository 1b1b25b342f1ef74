import CompiledCode.Memory.Basic
import CompiledCode.Patch.Apply

/-!
# Patching at another address

Patches go in if they lie within the code and none of them is refused. Where the code lives has no part
in that: a displacement within the code is the same wherever the code is, as addresses lie far below
the largest number. So code that was patched once can be patched anywhere, given the symbols.
-/

namespace CompiledCode

namespace Patch

/-- Whether a patch goes into code of a length. -/
def Fits (length : Nat) : Patch → Prop
  | write offset content => offset + content.length ≤ length
  | refuse _ => False

/-- Patching does not stop early if every patch goes in. -/
theorem stopped_runAll_eq_none_iff (patches : List Patch) (code : Bytes) :
    (runAll patches code).stopped = none ↔ ∀ patch ∈ patches, patch.Fits code.length := by
  induction patches generalizing code with
  | nil => exact ⟨fun _ => List.forall_mem_nil _, fun _ => rfl⟩
  | cons patch rest ih =>
    rw [List.forall_mem_cons]
    cases patch with
    | refuse cause => simp [runAll, run, Fits]
    | write offset content =>
      by_cases hfits : offset + content.length ≤ code.length
      · have hrun : (write offset content).run code = .ok (code.overwrite offset content) :=
          if_pos hfits
        rw [runAll, hrun]
        dsimp only
        rw [ih, Bytes.length_overwrite hfits]
        exact (and_iff_right hfits).symm
      · simp [runAll, run, hfits, Fits]

end Patch

/-- Addresses are read as they are unless they are very large. -/
theorem signed64_of_lt {address : Nat} (h : address < 0x8000000000000000) :
    signed64 address = address := by
  refine Int.bmod_eq_of_le ?_ ?_
  · simp only [UInt64.size]
    omega
  · simp only [UInt64.size]
    omega

/-- A reference within code can be patched wherever the code is if it could be anywhere. -/
theorem InternalPatch.fits_elsewhere {patch : InternalPatch} {base base' length : Nat}
    (hbase : base + length ≤ Memory.endOfAddresses) (hbase' : base' + length ≤ Memory.endOfAddresses)
    (h : (patch.applied base length).Fits length) : (patch.applied base' length).Fits length := by
  unfold Memory.endOfAddresses at hbase hbase'
  by_cases houtside : length < patch.target
  · rw [applied, if_pos houtside] at h
    exact h.elim
  rw [applied, if_neg houtside] at h ⊢
  cases hencoding : patch.encoding with
  | absolute =>
    rw [hencoding] at h
    simpa [Patch.Fits] using h
  | relative32 =>
    rw [hencoding] at h
    dsimp only at h ⊢
    have hinRange :
        -0x80000000 ≤ signed64 (base + patch.target) - signed64 (base + patch.site + 4) ∧
          signed64 (base + patch.target) - signed64 (base + patch.site + 4) < 0x80000000 := by
      refine Decidable.byContradiction fun hout => ?_
      rw [if_neg hout] at h
      exact h
    rw [if_pos hinRange] at h
    have hsite : patch.site + 4 ≤ length := by simpa [Patch.Fits] using h
    -- The displacement is the same as it was.
    have hsame : signed64 (base' + patch.target) - signed64 (base' + patch.site + 4) =
        signed64 (base + patch.target) - signed64 (base + patch.site + 4) := by
      rw [signed64_of_lt (by omega), signed64_of_lt (by omega), signed64_of_lt (by omega),
        signed64_of_lt (by omega)]
      omega
    rw [hsame, if_pos hinRange]
    simpa [Patch.Fits] using hsite

/-- The sites of a symbol can be patched if they lie within the code and the symbol is defined. -/
theorem fits_symbolPatches_iff {resolve : SymbolTable} {symbol : RuntimeSymbol} {sites : List Nat}
    {length : Nat} : (∀ patch ∈ symbolPatches resolve symbol sites, patch.Fits length) ↔
      (sites ≠ [] → (resolve symbol).isSome = true) ∧ ∀ site ∈ sites, site + 8 ≤ length := by
  rw [symbolPatches]
  cases sites with
  | nil => simp
  | cons site rest =>
    cases resolve symbol with
    | none => simp [Patch.Fits]
    | some address => simp [Patch.Fits]

/-- A symbol resolves if it is defined, or if it is for traps and these are handled, and not
otherwise. -/
theorem isSome_resolveSymbol_iff {symbols : SymbolTable} {trapHandler : Option UInt64}
    {symbol : RuntimeSymbol} : (resolveSymbol symbols trapHandler symbol).isSome = true ↔
      symbol = .handleTrap ∧ trapHandler.isSome = true ∨ (symbols symbol).isSome = true := by
  unfold resolveSymbol
  split
  · exact iff_of_true rfl (.inl ⟨rfl, rfl⟩)
  · rename_i hother
    refine ⟨.inr, fun h => h.resolve_left fun ⟨htrap, hhandled⟩ => ?_⟩
    obtain ⟨address, haddress⟩ := Option.isSome_iff_exists.mp hhandled
    exact hother address htrap haddress

/-- Code that was patched once can be patched wherever addresses can be, if the symbols that it refers
to are defined. -/
theorem PatchPlan.stopped_apply_elsewhere {plan : PatchPlan} {base base' : Nat}
    {symbols symbols' : SymbolTable} {trapHandler trapHandler' : Option UInt64} {code other : Bytes}
    (hlength : other.length = code.length) (hbase : base + code.length ≤ Memory.endOfAddresses)
    (hbase' : base' + code.length ≤ Memory.endOfAddresses)
    (hsymbols : ∀ symbol, plan.symbolic symbol ≠ [] →
      (resolveSymbol symbols' trapHandler' symbol).isSome = true)
    (h : (plan.apply base symbols trapHandler code).stopped = none) :
    (plan.apply base' symbols' trapHandler' other).stopped = none := by
  rw [apply, Patch.stopped_runAll_eq_none_iff, applied, List.forall_mem_append, List.forall_mem_map,
    List.forall_mem_flatMap] at h ⊢
  obtain ⟨hinternal, hsymbolic⟩ := h
  rw [hlength]
  refine ⟨fun patch hin => InternalPatch.fits_elsewhere hbase hbase' (hinternal patch hin),
    fun symbol hin => ?_⟩
  obtain ⟨-, hsites⟩ := fits_symbolPatches_iff.mp (hsymbolic symbol hin)
  exact fits_symbolPatches_iff.mpr ⟨hsymbols symbol, hsites⟩

end CompiledCode

import CompiledCode.Proofs.Block
import CompiledCode.Proofs.Patch
import CompiledCode.Proofs.Relocation
import Mathlib.Data.List.Flatten

/-!
# What the sites of symbols hold

Patches go in one after the other, and a later one may overwrite an earlier one. That does not
happen where the sites of a plan lie apart from each other: every site of a symbol then holds the address
that the symbol resolves to, in a block as in the code that was patched for it.
-/

namespace CompiledCode

instance : DecidableRel Apart := fun a b =>
  inferInstanceAs (Decidable (a.1 + a.2 ≤ b.1 ∨ b.1 + b.2 ≤ a.1))

namespace Patch

/-- Where a patch writes, if it does: the offset and the number of its bytes. -/
def stretch : Patch → List (Nat × Nat)
  | write offset content => [(offset, content.length)]
  | refuse _ => []

variable {patches : List Patch} {code content : Bytes} {length offset i : Nat}

/-- What patches write to lies in the stretch of one of them. -/
theorem Touches.exists_stretch (h : Touches length patches i) :
    ∃ place ∈ patches.flatMap stretch, place.1 ≤ i ∧ i < place.1 + place.2 := by
  induction patches with
  | nil => exact h.elim
  | cons patch rest ih =>
    cases patch with
    | refuse cause => exact h.elim
    | write offset content =>
      rcases h.2 with hhere | hlater
      · exact ⟨_, List.mem_cons_self, hhere⟩
      · obtain ⟨place, hin, hbounds⟩ := ih hlater
        exact ⟨place, List.mem_cons_of_mem _ hin, hbounds⟩

/-- If patches all go in, and apart from each other, then each of them is there in the end. -/
theorem getElem?_runAll_of_mem (hapart : (patches.flatMap stretch).Pairwise Apart)
    (hcomplete : (runAll patches code).stopped = none) (hin : write offset content ∈ patches)
    (hi : i < content.length) : (runAll patches code).code[offset + i]? = content[i]? := by
  induction patches generalizing code with
  | nil => contradiction
  | cons patch rest ih =>
    cases patch with
    | refuse cause => simp [runAll, run] at hcomplete
    | write start bytes =>
      rw [List.flatMap_cons, stretch, List.singleton_append, List.pairwise_cons] at hapart
      by_cases hfits : start + bytes.length ≤ code.length
      case neg => simp [runAll, run, hfits] at hcomplete
      simp only [runAll, run, if_pos hfits] at hcomplete ⊢
      rcases List.mem_cons.mp hin with hfirst | hlater
      · obtain ⟨rfl, rfl⟩ := Patch.write.inj hfirst
        -- What is written first stays, as no later patch writes there.
        rw [getElem?_runAll, Bytes.getElem?_overwrite hfits, if_pos (by omega),
          Nat.add_sub_cancel_left]
        intro htouched
        obtain ⟨place, hplace, hbounds⟩ := htouched.exists_stretch
        have hclear := hapart.1 place hplace
        rw [Apart] at hclear
        dsimp only at hclear
        omega
      · exact ih hapart.2 hcomplete hlater

end Patch

namespace PatchPlan

variable {plan : PatchPlan} {symbol : RuntimeSymbol} {site base : Nat} {symbols : SymbolTable}
  {trapHandler : Option UInt64} {code : Bytes}

/-- The stretches that a plan patches, each with its start and its width. -/
def sites (plan : PatchPlan) : List (Nat × Nat) :=
  plan.internal.map (fun patch => (patch.site, patch.encoding.width)) ++
    RuntimeSymbol.all.flatMap fun symbol => (plan.symbolic symbol).map fun site => (site, 8)

/-- Whether no two sites of a plan have a byte in common. -/
def SitesApart (plan : PatchPlan) : Prop := plan.sites.Pairwise Apart

instance (plan : PatchPlan) : Decidable plan.SitesApart :=
  inferInstanceAs (Decidable (plan.sites.Pairwise Apart))

/-- Applying a reference within the code writes to its site, or is refused. -/
theorem stretch_applied (patch : InternalPatch) (base length : Nat) :
    (patch.applied base length).stretch.Sublist [(patch.site, patch.encoding.width)] := by
  rw [InternalPatch.applied]
  split
  · exact List.nil_sublist _
  · cases patch.encoding with
    | absolute => simp [Patch.stretch, Encoding.width]
    | relative32 =>
      dsimp only
      split
      · simp [Patch.stretch, Encoding.width]
      · exact List.nil_sublist _

/-- Applying the references to a symbol writes to their sites, or is refused. -/
theorem stretch_symbolPatches (resolve : SymbolTable) (symbol : RuntimeSymbol) (sites : List Nat) :
    ((symbolPatches resolve symbol sites).flatMap Patch.stretch).Sublist
      (sites.map fun site => (site, 8)) := by
  rw [symbolPatches]
  split
  · exact List.nil_sublist _
  · split
    · exact List.nil_sublist _
    · rw [List.flatMap_map, List.map_eq_flatMap]
      simp [Patch.stretch]

/-- Applying a plan writes to its sites in turn and nowhere else. -/
theorem sublist_sites (plan : PatchPlan) (base length : Nat) (resolve : SymbolTable) :
    ((plan.applied base length resolve).flatMap Patch.stretch).Sublist plan.sites := by
  rw [applied, sites, List.flatMap_append, List.flatMap_map, List.flatMap_assoc, List.map_eq_flatMap]
  exact (List.Sublist.flatMap_right _ fun patch _ => stretch_applied patch base length).append
    (List.Sublist.flatMap_right _ fun symbol _ => stretch_symbolPatches resolve symbol _)

/-- If a plan goes in then every site of a symbol is patched with what the symbol resolves to. -/
theorem exists_mem_applied (hsite : site ∈ plan.symbolic symbol)
    (hcomplete : (plan.apply base symbols trapHandler code).stopped = none) :
    ∃ address, resolveSymbol symbols trapHandler symbol = some address ∧
      Patch.write site (littleEndian 8 address.toNat) ∈
        plan.applied base code.length (resolveSymbol symbols trapHandler) := by
  rw [apply, Patch.stopped_runAll_eq_none_iff, applied, List.forall_mem_append,
    List.forall_mem_flatMap] at hcomplete
  have hsites : plan.symbolic symbol ≠ [] := List.ne_nil_of_mem hsite
  have hfits := fits_symbolPatches_iff.mp (hcomplete.2 symbol symbol.mem_all)
  obtain ⟨address, haddress⟩ := Option.isSome_iff_exists.mp (hfits.1 hsites)
  refine ⟨address, haddress, List.mem_append_right _ (List.mem_flatMap.mpr ⟨symbol, symbol.mem_all, ?_⟩)⟩
  rw [symbolPatches, if_neg (by rwa [List.isEmpty_iff]), haddress]
  exact List.mem_map_of_mem hsite

end PatchPlan

/-- Code that is complete has not stopped early. -/
theorem Patched.complete_eq_ok_iff {patched : Patched} {code : Bytes} :
    patched.complete = .ok code ↔ patched.stopped = none ∧ patched.code = code := by
  rw [complete]
  cases patched.stopped with
  | none => simp
  | some cause => simp

/-- A site of a symbol in a block holds the address that the symbol resolves to, if the sites lie
apart. -/
theorem Memory.Shows.read_site {memory : Memory} {block : Block} {piece : Piece}
    (h : memory.Shows block piece) (hapart : piece.plan.SitesApart) {symbol : RuntimeSymbol}
    {site : Nat} (hsite : site ∈ piece.plan.symbolic symbol) :
    ∃ address, resolveSymbol piece.symbols piece.trapHandler symbol = some address ∧
      memory.read (block.base + site) 8 = littleEndian 8 address.toNat := by
  obtain ⟨hcomplete, hcode⟩ := Patched.complete_eq_ok_iff.mp h.patched
  obtain ⟨address, haddress, hin⟩ := PatchPlan.exists_mem_applied hsite hcomplete
  refine ⟨address, haddress, List.ext_getElem (by simp [read]) fun i hi hi' => ?_⟩
  have hbyte := Patch.getElem?_runAll_of_mem
    (hapart.sublist (piece.plan.sublist_sites ..)) hcomplete hin hi'
  rw [← PatchPlan.apply, hcode, List.getElem?_eq_getElem hi'] at hbyte
  obtain ⟨_, hbyte⟩ := List.getElem?_eq_some_iff.mp hbyte
  simpa [read, Nat.add_assoc] using hbyte

end CompiledCode

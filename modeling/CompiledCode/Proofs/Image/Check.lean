import CompiledCode.ModuleCode.Create
import CompiledCode.Proofs.Block
import CompiledCode.Proofs.Coverage
import CompiledCode.Proofs.Dispatch
import Mathlib.Data.List.Count
import Mathlib.Data.Option.Basic

/-!
# What checking an image makes sure of

An image that is not refused has everything that creating code relies on. Its tables are in order and
within the code, every function is covered, every slot that is filled exists in the dispatch tables,
and no two jit entries compete for a slot.

What is checked leaves out one thing: the last index that fits into 32 bits stands for an empty slot
in coverage maps. A table of so many code ranges takes a hundred gigabytes of memory.
-/

namespace CompiledCode

/-- Ranges that fit the code do not end before they start, and each of them ends in the code. -/
theorem CodeTables.le_of_boundsFault? {tables : CodeTables} {length : Nat}
    (h : tables.boundsFault? length = none) {range : CodeRange} (hin : range ∈ tables.ranges) :
    range.start ≤ range.stop ∧ range.stop ≤ length := by
  rw [boundsFault?] at h
  split at h
  · contradiction
  · rename_i hfits
    have hfit := List.find?_eq_none.mp hfits range hin
    simp only [rangeFits, Bool.not_eq_true, Bool.not_eq_false', Bool.and_eq_true,
      decide_eq_true_eq] at hfit
    exact ⟨Nat.le_trans hfit.1.1 hfit.1.2, hfit.2⟩

/-- Ranges that fit the code lie inside of it. -/
theorem CodeTables.rangesInside_of_boundsFault? {tables : CodeTables} {length : Nat}
    (h : tables.boundsFault? length = none) : Block.rangesInside 0 length tables = true := by
  rw [Block.rangesInside]
  split
  · rename_i first last _ hlast
    simp [(le_of_boundsFault? h (List.mem_of_getLast? hlast)).2]
  · rfl

/-- Eager entries that fit are code ranges. -/
theorem CodeTables.lt_of_boundsFault? {tables : CodeTables} {length : Nat}
    (h : tables.boundsFault? length = none) {entry : FuncExport} (hin : entry ∈ tables.exports)
    {index : Nat} (hindex : entry.eagerEntry = some index) : index < tables.ranges.length := by
  rw [boundsFault?] at h
  repeat' split at h
  all_goals try contradiction
  rename_i hfits
  have hfit := List.find?_eq_none.mp hfits entry hin
  simpa [eagerEntryFits, hindex] using hfit

namespace CompiledBlock

/-- Whether the tables of a block are fit for a module with some number of functions. -/
structure Checked (block : CompiledBlock) (funcCount : Nat) : Prop where
  small : block.code.length < UInt32.size
  inOrder : block.tables.disorder? = none
  inBounds : block.tables.boundsFault? block.code.length = none
  named : ∀ func ∈ block.tables.namedFuncs, func < funcCount
  covered : block.tables.uncovered? block.kind.primaryRange = none

/-- Whether a coverage map can hold the index of every code range of a block. -/
def Indexable (block : CompiledBlock) : Prop :=
  block.tables.ranges.length ≤ Coverage.reservedIndex

instance (block : CompiledBlock) : Decidable block.Indexable :=
  inferInstanceAs (Decidable (block.tables.ranges.length ≤ Coverage.reservedIndex))

variable {block : CompiledBlock} {funcCount : Nat}

/-- A block without a fault has fit tables. -/
theorem checked_of_fault? (h : block.fault? funcCount = none) : block.Checked funcCount := by
  simp only [fault?] at h
  split at h
  · contradiction
  · rename_i hsmall
    simp only [Option.orElse_eq_none, Option.map_eq_none_iff, List.find?_eq_none, decide_eq_true_eq,
      not_le] at h
    obtain ⟨hinOrder, hinBounds, hnamed, -, hcovered⟩ := h
    exact ⟨not_le.mp hsmall, hinOrder, hinBounds, hnamed, hcovered⟩

/-- A block that is not refused is of the kind expected. -/
theorem checked_of_refusal? {expected : BlockKind} (h : block.refusal? expected funcCount = none) :
    block.kind = expected ∧ block.Checked funcCount := by
  rw [refusal?] at h
  split at h
  · contradiction
  · rename_i hkind
    exact ⟨not_not.mp hkind, checked_of_fault? (Option.map_eq_none_iff.mp h)⟩

/-- A block that is made of fit tables can be bound. -/
theorem Checked.bindable (h : block.Checked funcCount) (hindexable : block.Indexable) {made : Block}
    (hmade : made.MadeOf block) : made.Bindable :=
  ⟨hmade.owner, hmade.coverage ▸ Coverage.requireFull_ofTables hindexable h.covered⟩

end CompiledBlock

/-- Whether module code can be created from parts, given room for it. -/
structure ModuleParts.Fit (parts : ModuleParts) (mode : CompileMode) : Prop where
  sharedKind : parts.sharedStubs.kind = .sharedStubs
  tierKind : parts.tier1.kind.tier?.isSome = true
  sharedStubs : parts.sharedStubs.Bindable
  tier1 : parts.tier1.Bindable
  dispatch : ∃ tables, DispatchTables.ofBlocks mode parts.sharedStubs parts.tier1 = .ok tables

namespace Image

/-- Whether coverage maps can hold the index of every code range of an image. -/
structure Indexable (image : Image) : Prop where
  sharedStubs : image.sharedStubs.Indexable
  tier : image.tier.Indexable

/-- Whether the blocks of an image are fit to become the code of one module. -/
structure Checked (image : Image) : Prop where
  sharedKind : image.sharedStubs.kind = .sharedStubs
  tierKind : image.tier.kind.tier?.isSome = true
  sharedStubs : image.sharedStubs.Checked image.funcCount
  tier : image.tier.Checked image.funcCount
  jitFuncs : (image.sharedStubs.tables.jitFuncs ++ image.tier.tables.jitFuncs).Nodup

variable {image : Image}

/-- A saved tier of the kind expected is a tier. -/
theorem isSome_tier?_expectedTier (image : Image) : image.expectedTier.tier?.isSome = true := by
  rw [expectedTier]
  split <;> rfl

/-- Without a function with two jit entries there is one jit entry for each. -/
theorem nodup_jitFuncs (h : image.doubleJitEntry? = none) :
    (image.sharedStubs.tables.jitFuncs ++ image.tier.tables.jitFuncs).Nodup := by
  simp only [List.min?_eq_none_iff, doubleJitEntry?, List.filter_eq_nil_iff, decide_eq_true_eq,
    not_lt] at h
  rw [List.nodup_iff_count]
  intro func
  by_cases hin : func ∈ image.sharedStubs.tables.jitFuncs ++ image.tier.tables.jitFuncs
  · exact h func hin
  · rw [List.count_eq_zero_of_not_mem hin]
    exact Nat.zero_le 1

/-- The blocks of an image that is not refused are fit to become the code of one module. -/
theorem checked_of_fault? {host : Settings} (h : image.fault? host = none) : image.Checked := by
  simp only [fault?, Option.orElse_eq_none, Option.map_eq_none_iff] at h
  obtain ⟨-, hshared, htier, hjit, -⟩ := h
  obtain ⟨hsharedKind, hshared⟩ := CompiledBlock.checked_of_refusal? hshared
  obtain ⟨htierKind, htier⟩ := CompiledBlock.checked_of_refusal? htier
  exact ⟨hsharedKind, htierKind ▸ image.isSome_tier?_expectedTier, hshared, htier,
    nodup_jitFuncs hjit⟩

/-- Module code can be created from blocks that the blocks of a checked image were made into, if they
can be bound. -/
theorem Checked.fit_of_bindable (h : image.Checked) {parts : ModuleParts}
    (hshared : parts.sharedStubs.MadeOf image.sharedStubs) (htier : parts.tier1.MadeOf image.tier)
    (hbindable : parts.sharedStubs.Bindable) (hbindable' : parts.tier1.Bindable)
    (mode : CompileMode) : parts.Fit mode where
  sharedKind := hshared.kind.trans h.sharedKind
  tierKind := htier.kind ▸ h.tierKind
  sharedStubs := hbindable
  tier1 := hbindable'
  dispatch := by
    refine DispatchTables.exists_ofBlocks_eq_ok mode ?_ ?_ ?_
    · rw [hshared.tables, htier.tables]
      exact h.sharedStubs.named
    · rw [hshared.tables, htier.tables]
      exact h.tier.named
    · rw [hshared.tables, htier.tables]
      exact h.jitFuncs

/-- Module code can be created from blocks that the blocks of a checked image were made into. -/
theorem Checked.fit (h : image.Checked) (hindexable : image.Indexable) {parts : ModuleParts}
    (hshared : parts.sharedStubs.MadeOf image.sharedStubs) (htier : parts.tier1.MadeOf image.tier)
    (mode : CompileMode) : parts.Fit mode :=
  h.fit_of_bindable hshared htier (h.sharedStubs.bindable hindexable.sharedStubs hshared)
    (h.tier.bindable hindexable.tier htier) mode

end Image

end CompiledCode

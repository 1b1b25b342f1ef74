import CompiledCode.Image.Store
import CompiledCode.Proofs.Block
import CompiledCode.Proofs.Patch

/-!
# What an image says

The image of a module is given by what the module is made from, and does not depend on where its
blocks are or what was patched into them. What an image holds is erased, and erasing it once more
changes nothing, so that a module that is made from an image has that image.
-/

namespace CompiledCode

namespace CompiledBlock

/-- A compiled block with its placeholders written back, as it is saved. -/
def erased (compiled : CompiledBlock) (plan : PatchPlan) : CompiledBlock :=
  { compiled with code := (plan.erase compiled.code).code }

/-- What is saved is as long as what was compiled. -/
theorem length_erased (compiled : CompiledBlock) (plan : PatchPlan) :
    (compiled.erased plan).code.length = compiled.code.length := Patch.length_runAll _ _

end CompiledBlock

/-- A block of patched code is saved as it was compiled, with its placeholders. -/
theorem Memory.Bears.unpatched {memory : Memory} {block : Block} {compiled : CompiledBlock}
    {plan : PatchPlan} (h : memory.Bears block compiled plan) :
    block.unpatched memory plan = .ok (compiled.erased plan) := by
  obtain ⟨symbols, trapHandler, hpatched⟩ := h.patched
  have hread : block.segment.read memory block.start block.stop =
      .ok (memory.read block.segment.base block.stop) := by
    rw [h.start, Segment.read, if_pos ⟨Nat.zero_le _, h.stop_le⟩]
    rfl
  rw [Patched.complete] at hpatched
  split at hpatched
  · rename_i hcomplete
    have hcode := Except.ok.inj hpatched
    rw [Block.unpatched, if_neg (not_not_intro h.start), Segment.readUnpatched, hread, ← hcode]
    dsimp only
    rw [PatchPlan.erase_apply, Patched.complete, PatchPlan.complete_erase_of_apply hcomplete, h.kind,
      h.tables]
    rfl
  · contradiction

/-- What is saved of a block holds its placeholders. -/
theorem Block.erased_of_unpatched {block : Block} {memory : Memory} {plan : PatchPlan}
    {saved : CompiledBlock} (h : block.unpatched memory plan = .ok saved) : saved.erased plan = saved := by
  rw [Block.unpatched] at h
  split at h
  · contradiction
  split at h
  · contradiction
  · rename_i code hcode
    cases h
    rw [Segment.readUnpatched] at hcode
    split at hcode
    · contradiction
    · split at hcode
      · contradiction
      · rename_i patched _ unpatched herased
        cases hcode
        rw [Patched.complete] at herased
        split at herased
        · cases herased
          simp only [CompiledBlock.erased, PatchPlan.erase_erase]
        · contradiction

/-- What the code of a module is made from. -/
structure Source where
  /-- The settings of the code. -/
  settings : Settings
  /-- The signatures of the imports. -/
  imports : List Nat
  /-- The name of the module. -/
  moduleName : String
  /-- The names of functions, by index. -/
  funcNames : List String
  /-- The stubs that every tier shares. -/
  sharedStubs : CompiledBlock
  /-- What to patch in the shared stubs. -/
  sharedPlan : PatchPlan
  /-- The first tier. -/
  tier1 : CompiledBlock
  /-- What to patch in the first tier. -/
  tier1Plan : PatchPlan
  /-- The optimized tier, should one be installed. -/
  optimized : CompiledBlock
  /-- What to patch in the optimized tier. -/
  optimizedPlan : PatchPlan

namespace Source

/-- The code compiled for a tier, which is the first one or the optimized one. -/
def tier (source : Source) (tier : Tier) : CompiledBlock :=
  if source.tier1.kind.tier? = some tier then source.tier1 else source.optimized

/-- What to patch in the code of a tier. -/
def plan (source : Source) (tier : Tier) : PatchPlan :=
  if source.tier1.kind.tier? = some tier then source.tier1Plan else source.optimizedPlan

/-- The image of a tier, by what the code is made from. -/
def image (source : Source) (tier : Tier) : Image where
  settings := source.settings
  imports := source.imports
  moduleName := source.moduleName
  funcNames := source.funcNames
  sharedStubs := source.sharedStubs.erased source.sharedPlan
  sharedPlan := source.sharedPlan
  tier := (source.tier tier).erased (source.plan tier)
  tierPlan := source.plan tier

/-- Whether the code of a module is made from a source, as memory and the module are at present. -/
structure Describes (source : Source) (memory : Memory) (code : ModuleCode) : Prop where
  settings : code.settings = source.settings
  imports : code.imports = source.imports
  moduleName : code.moduleName = source.moduleName
  funcNames : code.funcNames = source.funcNames
  tierKind : source.tier1.kind.tier?.isSome = true
  owned : code.sharedStubs ∈ code.blocks ∧ code.tier1 ∈ code.blocks ∧
    ∀ tier2, code.tier2.block? = some tier2 → tier2 ∈ code.blocks
  sharedStubs : memory.Bears code.sharedStubs source.sharedStubs source.sharedPlan
  tier1 : memory.Bears code.tier1 source.tier1 source.tier1Plan
  optimized : ∀ tier2, code.tier2.block? = some tier2 →
    memory.Bears tier2 source.optimized source.optimizedPlan

end Source

/-- The tier that a block holds, if it holds any. -/
theorem Block.tier_eq_ok_iff {block : Block} {tier : Tier} :
    block.tier = .ok tier ↔ block.kind.tier? = some tier := by
  rw [Block.tier]
  split
  · rename_i own hown
    rw [hown, Except.ok.injEq, Option.some.injEq]
  · rename_i hnone
    rw [hnone]
    exact ⟨nofun, nofun⟩

/-- The tiers of a module, the first one first. -/
def ModuleCode.tiers (code : ModuleCode) : List Block := code.tier1 :: code.tier2.block?.toList

theorem ModuleCode.mem_tiers {code : ModuleCode} {block : Block} :
    block ∈ code.tiers ↔ block = code.tier1 ∨ code.tier2.block? = some block := by
  rw [tiers, List.mem_cons, Option.mem_toList]

/-- A tier that is available is the first one or the optimized one. -/
theorem ModuleCode.exists_tierBlock_eq_ok {code : ModuleCode} {tier : Tier}
    (h : code.hasTier tier = .ok true) :
    code.tier1.kind.tier? = some tier ∧ code.tierBlock tier = .ok code.tier1 ∨
      code.tier1.kind.tier? ≠ some tier ∧
        ∃ tier2, code.tier2.block? = some tier2 ∧ code.tierBlock tier = .ok tier2 := by
  rw [hasTier] at h
  rw [tierBlock, ← Block.tier_eq_ok_iff]
  cases hfirst : code.tier1.tier with
  | error violation =>
    rw [hfirst] at h
    contradiction
  | ok first =>
    rw [hfirst] at h
    change (if first = tier then _ else _) = _ at h
    by_cases hsame : first = tier
    · exact .inl ⟨hsame ▸ rfl, if_pos hsame⟩
    · rw [if_neg hsame] at h
      refine .inr ⟨fun hkind => hsame (Except.ok.inj (hfirst.symm.trans (Block.tier_eq_ok_iff.mpr hkind))), ?_⟩
      cases htier2 : code.tier2.block? with
      | none =>
        rw [htier2] at h
        exact absurd (Except.ok.inj h) Bool.false_ne_true
      | some tier2 =>
        rw [htier2] at h
        refine ⟨tier2, rfl, ?_⟩
        change (if first = tier then _ else _) = _
        rw [if_neg hsame]
        cases hsecond : tier2.tier with
        | error violation =>
          dsimp only at h
          rw [hsecond] at h
          contradiction
        | ok second =>
          dsimp only at h ⊢
          rw [hsecond] at h
          have hequal : second = tier := of_decide_eq_true (Except.ok.inj h)
          change (if second = tier then _ else _) = _
          rw [if_pos hequal]
          rfl

namespace Source

variable {source : Source} {memory : Memory} {code : ModuleCode} {tier : Tier}

/-- A tier that is available has a block, which bears the code compiled for that tier. -/
theorem Describes.exists_tierBlock (h : source.Describes memory code)
    (htier : code.hasTier tier = .ok true) : ∃ block, code.tierBlock tier = .ok block ∧
      block ∈ code.tiers ∧
      memory.Bears block (source.tier tier) (source.plan tier) := by
  obtain ⟨hfirst, hblock⟩ | ⟨hsecond, tier2, htier2, hblock⟩ := ModuleCode.exists_tierBlock_eq_ok htier
  · rw [h.tier1.kind] at hfirst
    rw [Source.tier, Source.plan, if_pos hfirst, if_pos hfirst]
    exact ⟨_, hblock, ModuleCode.mem_tiers.mpr (.inl rfl), h.tier1⟩
  · rw [h.tier1.kind] at hsecond
    rw [Source.tier, Source.plan, if_neg hsecond, if_neg hsecond]
    exact ⟨_, hblock, ModuleCode.mem_tiers.mpr (.inr htier2), h.optimized tier2 htier2⟩

/-- The block of a tier that is available bears the code compiled for that tier. -/
theorem Describes.of_tierBlock {block : Block} (h : source.Describes memory code)
    (htier : code.hasTier tier = .ok true) (hblock : code.tierBlock tier = .ok block) :
    block ∈ code.tiers ∧ memory.Bears block (source.tier tier) (source.plan tier) := by
  obtain ⟨found, hfound, hbears⟩ := h.exists_tierBlock htier
  obtain rfl := Except.ok.inj (hfound.symm.trans hblock)
  exact hbears

/-- The image of code is given by what the code is made from. -/
theorem Describes.image (h : source.Describes memory code) (htier : code.hasTier tier = .ok true) :
    code.image memory source.sharedPlan tier (source.plan tier) = .ok (source.image tier) := by
  obtain ⟨block, hblock, -, hbears⟩ := h.exists_tierBlock htier
  rw [ModuleCode.image, h.sharedStubs.unpatched, hblock]
  dsimp only
  rw [hbears.unpatched]
  dsimp only
  rw [h.settings, h.imports, h.moduleName, h.funcNames]
  rfl

/-- The first tier can be saved at any time. -/
theorem Describes.exists_stableTier (h : source.Describes memory code) :
    ∃ tier, code.stableTier = .ok tier ∧ code.hasTier tier = .ok true ∧
      source.tier1.kind.tier? = some tier := by
  obtain ⟨tier, htier⟩ := Option.isSome_iff_exists.mp h.tierKind
  have hfirst : code.tier1.tier = .ok tier := Block.tier_eq_ok_iff.mpr (h.tier1.kind ▸ htier)
  refine ⟨tier, hfirst, ?_, htier⟩
  rw [ModuleCode.hasTier, hfirst]
  exact if_pos rfl

end Source

/-- What code that is loaded from an image is made from. -/
def Image.source (image : Image) (optimized : CompiledBlock) (optimizedPlan : PatchPlan) : Source where
  settings := image.settings
  imports := image.imports
  moduleName := image.moduleName
  funcNames := image.funcNames
  sharedStubs := image.sharedStubs
  sharedPlan := image.sharedPlan
  tier1 := image.tier
  tier1Plan := image.tierPlan
  optimized := optimized
  optimizedPlan := optimizedPlan

/-- What is saved holds its placeholders, and the plans that it was saved with. -/
theorem ModuleCode.erased_of_image {code : ModuleCode} {memory : Memory} {tier : Tier}
    {sharedPlan tierPlan : PatchPlan} {image : Image}
    (h : code.image memory sharedPlan tier tierPlan = .ok image) :
    image.sharedPlan = sharedPlan ∧ image.tierPlan = tierPlan ∧
      image.sharedStubs.erased sharedPlan = image.sharedStubs ∧
      image.tier.erased tierPlan = image.tier := by
  rw [ModuleCode.image] at h
  split at h
  · contradiction
  rename_i hshared
  split at h
  · contradiction
  split at h
  · contradiction
  rename_i htier
  cases h
  exact ⟨rfl, rfl, Block.erased_of_unpatched hshared, Block.erased_of_unpatched htier⟩

/-- What holds its placeholders is saved from a module that is made from it. -/
theorem Image.image_source {image : Image} {tier : Tier}
    (hshared : image.sharedStubs.erased image.sharedPlan = image.sharedStubs)
    (htier : image.tier.erased image.tierPlan = image.tier) (hkind : image.tier.kind.tier? = some tier)
    (optimized : CompiledBlock) (optimizedPlan : PatchPlan) :
    (image.source optimized optimizedPlan).image tier = image := by
  have hfirst : (image.source optimized optimizedPlan).tier1.kind.tier? = some tier := hkind
  rw [Source.image, Source.tier, Source.plan, if_pos hfirst, if_pos hfirst]
  simp only [source, hshared, htier]

end CompiledCode

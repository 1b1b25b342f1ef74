import CompiledCode.Proofs.Image.Saved
import CompiledCode.Proofs.ModuleCode.Life

/-!
# What dispatch slots point at

As long as nobody offers entries from outside, a jit-entry slot is empty or holds a jit entry that a
block of the module has for the function, and a tiering slot is empty or holds the address at which
a body of the function is entered, in the shared stubs or in a tier that is available. Blocks come
before the slots that point into them, and a block that is taken back has never been offered.
-/

namespace CompiledCode

/-- Whether an address is one at which a body that a block has for a function is entered. -/
def Block.BodyAt (block : Block) (func address : Nat) : Prop :=
  ∃ range ∈ block.tables.ranges,
    range.kind = .function ∧ range.func = some func ∧ address = block.addressOf range.tierEntry

namespace DispatchTables

variable {before after tables : DispatchTables} {block : Block}

/-- The last body of a function is one of its bodies. -/
theorem bodyAt_of_bodyOf? {func : Nat} {body : CodeRange}
    (h : bodyOf? block.tables.ranges func = some body) :
    block.BodyAt func (block.addressOf body.tierEntry) := by
  have hbody := List.find?_some h
  rw [Bool.and_eq_true, decide_eq_true_eq, decide_eq_true_eq] at hbody
  exact ⟨body, List.mem_reverse.mp (List.mem_of_find?_eq_some h), hbody.1, hbody.2, rfl⟩

/-- Whether there is no tiering slot unless in tiering mode. -/
def Unused (tables : DispatchTables) : Prop := tables.mode ≠ .tiering → tables.tiering = []

/-- Slots that are not used are not used later. -/
theorem SameSlots.unused (h : before.SameSlots after) (hunused : before.Unused) : after.Unused := by
  intro hmode
  rw [h.mode] at hmode
  rw [← List.length_eq_zero_iff, h.length, hunused hmode]
  rfl

/-- Once calls are led to a block, a tiering slot points at a body in it, or where it did before. -/
theorem LedTo.tiering_or (h : before.LedTo block block.tables.ranges after) (hunused : before.Unused)
    {func target : Nat} (htarget : after.tiering[func]? = some target) :
    before.tiering[func]? = some target ∨ block.BodyAt func target := by
  by_cases hmode : before.mode = .tiering
  · have hfunc : func < before.tiering.length :=
      h.length ▸ (List.getElem?_eq_some_iff.mp htarget).1
    rw [h.slots hmode func hfunc] at htarget
    cases hbody : bodyOf? block.tables.ranges func with
    | none =>
      rw [hbody] at htarget
      exact .inl htarget
    | some body =>
      rw [hbody] at htarget
      obtain rfl := Option.some.inj htarget
      exact .inr (bodyAt_of_bodyOf? hbody)
  · have hnone := h.toSameSlots.unused hunused (h.mode ▸ hmode)
    rw [hnone] at htarget
    contradiction

/-- The slots of new tables that are not empty point into the blocks that they are filled from. -/
theorem targets_of_ofBlocks {mode : CompileMode} {shared tier1 : Block}
    (h : ofBlocks mode shared tier1 = .ok tables) :
    tables.Unused ∧
    (∀ func entry, tables.jit[func]? = some entry → entry ≠ 0 →
      Block.JitEntryIn [shared, tier1] func entry) ∧
    ∀ func target, tables.tiering[func]? = some target → target ≠ 0 →
      shared.BodyAt func target ∨ tier1.BodyAt func target := by
  obtain ⟨middle, hfirst, hsecond⟩ := exists_of_ofBlocks h
  generalize max shared.tables.funcs.stop tier1.tables.funcs.stop = count at hfirst
  have hempty : (empty mode count).Unused := by
    intro hmode
    cases mode with
    | tiering => contradiction
    | once => rfl
  have hledFirst := (forM_ledTo (fillRange_ledTo shared) _ _).of_ok hfirst
  have hledSecond := (forM_ledTo (fillRange_ledTo tier1) _ _).of_ok hsecond
  have hmiddle := hledFirst.toSameSlots.unused hempty
  refine ⟨hledSecond.toSameSlots.unused hmiddle, fun func entry hentry hsome => ?_,
    fun func target htarget hsome => ?_⟩
  · rcases ((fillRanges_jitGrown tier1 _).of_ok hsecond).gained hentry hsome with hbefore | hat
    · rcases ((fillRanges_jitGrown shared _).of_ok hfirst).gained hbefore hsome with hvacant | hat
      · exact absurd (List.eq_of_mem_replicate (List.mem_of_getElem? hvacant)) hsome
      · exact .of_mem List.mem_cons_self hat
    · exact .of_mem (List.mem_cons_of_mem _ List.mem_cons_self) hat
  · rcases hledSecond.tiering_or hmiddle htarget with hbefore | hat
    · rcases hledFirst.tiering_or hempty hbefore with hvacant | hat
      · cases mode with
        | tiering => exact absurd (List.eq_of_mem_replicate (List.mem_of_getElem? hvacant)) hsome
        | once => contradiction
      · exact .inl hat
    · exact .inr hat

end DispatchTables

namespace ModuleCode

/-- Whether the slots of a module that are not empty point into its blocks. -/
structure Targeted (code : ModuleCode) : Prop where
  /-- There are tiering slots in tiering mode alone. -/
  unused : code.dispatch.Unused
  /-- The shared stubs and the tiers are among the blocks. -/
  owned : ∀ block ∈ code.sharedStubs :: code.tiers, block ∈ code.blocks
  /-- Jit entries are in blocks of the module. -/
  jit : ∀ func entry, code.dispatch.jit[func]? = some entry → entry ≠ 0 →
    Block.JitEntryIn code.blocks func entry
  /-- Calls lead to bodies in the shared stubs or in a tier. -/
  tiering : ∀ func target, code.dispatch.tiering[func]? = some target → target ≠ 0 →
    ∃ block ∈ code.sharedStubs :: code.tiers, block.BodyAt func target

variable {start code later : ModuleCode} {calls : List ModuleCall}

/-- The slots of a new module point into its blocks. -/
theorem CreatedFrom.targeted {settings : Settings} {symbols : SymbolTable} {parts : ModuleParts}
    (h : CreatedFrom settings symbols parts code) : code.Targeted := by
  obtain ⟨hunused, hjit, htiering⟩ := DispatchTables.targets_of_ofBlocks h.ofBlocks_eq
  obtain ⟨hblocks, -⟩ := h.blocks
  have htiers : code.tiers = [code.tier1] := by rw [tiers, h.fresh.1]; rfl
  refine ⟨hunused, ?_, ?_, fun func target htarget hsome => ?_⟩
  · rw [htiers, hblocks]
    exact fun _ hin => hin
  · rw [hblocks]
    exact hjit
  · rw [htiers]
    rcases htiering func target htarget hsome with hat | hat
    · exact ⟨_, List.mem_cons_self, hat⟩
    · exact ⟨_, List.mem_cons_of_mem _ List.mem_cons_self, hat⟩

/-- Slots still point into the blocks of a module that has more blocks, if they point where they did or
into the new ones. -/
theorem Targeted.grow (h : code.Targeted) (more tiers : List Block)
    (hshared : later.sharedStubs = code.sharedStubs) (hblocks : later.blocks = code.blocks ++ more)
    (htiers : later.tiers = code.tiers ++ tiers) (hmore : tiers ⊆ more)
    (hunused : later.dispatch.Unused)
    (hjit : code.dispatch.JitGrown (Block.JitEntryIn more) later.dispatch)
    (htiering : ∀ func target, later.dispatch.tiering[func]? = some target →
      code.dispatch.tiering[func]? = some target ∨ ∃ block ∈ tiers, block.BodyAt func target) :
    later.Targeted := by
  refine ⟨hunused, ?_, fun func entry hentry hsome => ?_, fun func target htarget hsome => ?_⟩
  · rw [hshared, htiers, hblocks, ← List.cons_append]
    intro block hin
    rcases List.mem_append.mp hin with hold | hnew
    · exact List.mem_append_left _ (h.owned block hold)
    · exact List.mem_append_right _ (hmore hnew)
  · rw [hblocks]
    rcases hjit.gained hentry hsome with hbefore | ⟨block, hin, hat⟩
    · obtain ⟨block, hin, hat⟩ := h.jit func entry hbefore hsome
      exact ⟨block, List.mem_append_left _ hin, hat⟩
    · exact ⟨block, List.mem_append_right _ hin, hat⟩
  · rw [hshared, htiers, ← List.cons_append]
    rcases htiering func target htarget with hbefore | ⟨block, hin, hat⟩
    · obtain ⟨block, hin, hat⟩ := h.tiering func target hbefore hsome
      exact ⟨block, List.mem_append_left _ hin, hat⟩
    · exact ⟨block, List.mem_append_right _ hin, hat⟩

/-- With the same providers the same tiers are available. -/
theorem SameProviders.tiers_eq (h : code.SameProviders later) : later.tiers = code.tiers := by
  rw [tiers, tiers, h.tier1, h.tier2]

/-- Slots still point into the blocks of a module whatever a call comes to that is no offer. -/
theorem Targeted.outcome (h : code.Targeted) {call : ModuleCall} (houtcome : call.Outcome code later)
    (hinside : call.isOffer = false) : later.Targeted := by
  cases houtcome with
  | notes hmarked =>
    have hsame := hmarked.sameProviders
    obtain ⟨calls, tier2, -, hcontent⟩ := hmarked
    have hdispatch : later.dispatch = code.dispatch := (congrArg ModuleCode.dispatch hcontent :)
    have hblocks : later.blocks = code.blocks := (congrArg ModuleCode.blocks hcontent :)
    refine h.grow [] [] hsame.sharedStubs ?_ ?_ (List.nil_subset _) ?_ ?_ ?_
    · rw [hblocks, List.append_nil]
    · rw [hsame.tiers_eq, List.append_nil]
    · rw [hdispatch]
      exact h.unused
    · exact .of_jit_eq (congrArg DispatchTables.jit hdispatch)
    · rw [hdispatch]
      exact fun _ _ => .inl
  | @stub _ _ batch _ hadds =>
    have hsame := hadds.sameProviders
    obtain ⟨note, tier2, -, -, hcontent⟩ := hadds.content
    obtain ⟨jit, -, hjit⟩ := hadds.offered.others
    refine h.grow [batch.block] [] hsame.sharedStubs (congrArg ModuleCode.blocks hcontent :) ?_
      (List.nil_subset _) (hadds.offered.sameSlots.unused h.unused)
      (hadds.offered.toJitGrown.mono fun _ _ => .of_mem List.mem_cons_self) ?_
    · rw [hsame.tiers_eq, List.append_nil]
    · rw [hjit]
      exact fun _ _ => .inl
  | @tier _ _ _ tier2 made _ habsent _ _ hadds =>
    have hpublished : later.tier2 = .published tier2 := (congrArg ModuleCode.tier2 hadds.content :)
    have htier1 : later.tier1 = code.tier1 := (congrArg ModuleCode.tier1 hadds.content :)
    -- Jit entries may be those of the tier or of its stubs, and bodies are those of the tier.
    refine h.grow _ [tier2] (congrArg ModuleCode.sharedStubs hadds.content :)
      (congrArg ModuleCode.blocks hadds.content :) ?_ ?_
      (hadds.ledTo.toSameSlots.unused h.unused) hadds.jitGrown fun func target htarget => ?_
    · rw [tiers, tiers, htier1, hpublished, habsent]
      rfl
    · exact List.cons_subset_cons _ (List.nil_subset _)
    · refine (hadds.ledTo.tiering_or h.unused htarget).imp_right fun hat => ?_
      exact ⟨tier2, List.mem_cons_self, hat⟩
  | offer => contradiction

/-- Dispatch slots never dangle. In a module that was created or loaded, then asked for interpreter
entries and given optimized tiers, whether it could be done or not, every jit entry is one that a
block of the module has for the function, and calls that lead anywhere lead to a body that the shared
stubs, the first tier or the published one have for it. -/
theorem slots_point_into_blocks (hstart : start.Started) (hrun : Runs calls start code)
    (hinside : ∀ call ∈ calls, call.isOffer = false) :
    (∀ func entry, code.dispatch.jitEntry func = .ok (some entry) →
      ∃ block ∈ code.blocks, block.JitEntryAt func entry) ∧
    ∀ func target, code.dispatch.tiering[func]? = some target → target ≠ 0 →
      ∃ block ∈ code.blocks, (block = code.sharedStubs ∨ block = code.tier1 ∨
        code.tier2 = .published block) ∧ block.BodyAt func target := by
  have htargeted : code.Targeted := by
    induction hrun with
    | nil =>
      obtain ⟨_, _, _, _, _, hend⟩ := hstart.exists_create
      exact ((create_content ..).of_ok hend).targeted
    | snoc hrun hturn ih =>
      rw [List.forall_mem_append, List.forall_mem_singleton] at hinside
      exact (ih hstart hinside.1).outcome hturn.outcome hinside.2
  refine ⟨fun func entry hentry => ?_, fun func target htarget hsome => ?_⟩
  · obtain ⟨hslot, hsome⟩ := DispatchTables.jitEntry_eq_some_iff.mp hentry
    exact htargeted.jit func entry hslot hsome
  · obtain ⟨block, hin, hat⟩ := htargeted.tiering func target htarget hsome
    refine ⟨block, htargeted.owned block hin, ?_, hat⟩
    rw [List.mem_cons, mem_tiers] at hin
    exact hin.imp_right (.imp_right OptimizedTier.eq_published_of_block?)

/-- The slots of a function point into its stub and into the optimized tier once both are there. -/
theorem slots_point_into_blocks_once_installed :
    ∃ (layout : StubLayout) (start code : ModuleCode), start.Started ∧
      Runs [.entry layout.compiler 1, .install layout.compiler {} .oneImportOptimized] start code ∧
      (∃ entry, code.dispatch.jitEntry 1 = .ok (some entry) ∧
        ∃ block ∈ code.blocks, block.JitEntryAt 1 entry) ∧
      ∃ target, code.dispatch.tiering[1]? = some target ∧
        ∃ block ∈ code.blocks, (block = code.sharedStubs ∨ block = code.tier1 ∨
          code.tier2 = .published block) ∧ block.BodyAt 1 target := by
  let layout : StubLayout := {}
  let calls : List ModuleCall :=
    [.entry layout.compiler 1, .install layout.compiler {} .oneImportOptimized]
  have hends : (create { mode := .tiering } .empty .oneImport).succeeds {} (fun code engine =>
      (calls.forM ModuleCall.run).succeeds { engine, code } fun _ t =>
        t.code.dispatch.jitEntry 1 = .ok (some 0x200000000010) &&
          t.code.dispatch.tiering[1]? = some 0x200000011008) = true := by
    decide +kernel
  obtain ⟨start, _, t, hcreate, hrun, htest⟩ := exists_run hends
  have hstart : start.Started := .created hcreate
  simp only [Bool.and_eq_true, decide_eq_true_eq] at htest
  have hinside : ∀ call ∈ calls, call.isOffer = false := by decide
  obtain ⟨hjit, htiering⟩ := slots_point_into_blocks hstart hrun hinside
  exact ⟨layout, start, t.code, hstart, hrun, ⟨_, htest.1, hjit 1 _ htest.1⟩, _, htest.2,
    htiering 1 _ htest.2 (by decide)⟩

end ModuleCode

end CompiledCode

import CompiledCode.Proofs.ModuleCode.Refusal
import CompiledCode.Proofs.Process.Stubs

/-!
# Installing a tier in step

The new tier is the last block of its module when an upgrade of the entry stubs fails, as that
leaves the blocks as they were, so that it is the tier that is taken back then. From the
publication on nothing is added or taken back any more.
-/

namespace CompiledCode.Running

variable {s : Running} {since : Memory} {placed : List Block} {others : List ModuleCode} {compiler : StubCompiler}

/-- The optimized tier may get further or go back. -/
theorem InStep.withTier2 (h : s.InStep since placed others) (tier2 : OptimizedTier) :
    InStep { s with code := s.code.withTier2 tier2 } since placed others :=
  h.congr ⟨rfl, rfl, rfl, rfl⟩

/-- Entry stubs are made anew in step, or the blocks are as they were. -/
theorem upgradeStubs_inStep (h : s.InStep since placed others) (tier2 : Block) :
    (upgradeStubs compiler tier2).Ensures s (fun _ t => t.InStep since placed others)
      (fun fault t => fault.ofMap = false ∧ s.Stays t since placed others) := by
  refine upgradeStubs_ensures (fun _ => h)
    (fun bytes => (grow_inStep h bytes).mono (fun _ _ ht => ht)
      (fun _ _ hfault => ⟨Fault.ofMap_of_not_isViolation hfault.1, hfault.2.1, by rw [hfault.2.2]⟩))
    (fun _ _ ht => ⟨rfl, ht.1, by rw [ht.2]⟩) fun t requests ht _ => ?_
  exact (createStubs_inStep ht.1).mono (fun _ _ hu => hu.withExports _)
    (fun _ _ hfault => ⟨hfault.1, hfault.2.1, hfault.2.2.trans (by rw [ht.2])⟩)

/-- Placing a tier makes it a block that waits to become part of its module. -/
theorem buildOptimized_inStep (h : s.InStep since placed others) (plan : PatchPlan)
    (compiled : CompiledBlock) :
    (buildOptimized plan compiled).Ensures s
      (fun tier2 t => t.InStep since (tier2 :: placed) others ∧ t.code = s.code ∧
        (∀ other ∈ s.code.blocks ++ others.flatMap (·.blocks), other.serial ≠ tier2.serial) ∧
        tier2.serial < t.engine.nextSerial ∧ t.engine.memory.Bears tier2 compiled plan ∧
        t.engine.memory.Shows tier2 (.ofBlock compiled plan s.code.symbols (some s.code.sharedStubs)))
      (fun fault t => fault.ofMap = false ∧ t.InStep since placed others) := by
  rw [buildOptimized, Op.ensures_bind, ensures_current, Op.ensures_bind, ensures_onMemory]
  refine (Block.place_hosts h.sound ..).mono (fun block memory hblock => ?_)
    (fun fault memory hfault => ⟨hfault.1, h.withMemory hfault.2.2⟩)
  obtain ⟨hkeeps, hhosts, hclear, hbears, hshows⟩ := hblock
  have hplaced := Process.InStep.place h hkeeps hhosts hclear
  rw [ensures_onEngine]
  refine (Engine.bindBlock_inStep hplaced _).mono (fun tier2 e hbound => ?_) (fun fault e hfault => ?_)
  · obtain ⟨hbound, hserial, hnext, hbears', hshows'⟩ := hbound
    exact ⟨hbound, rfl, hplaced.serial_ne hserial,
      Nat.lt_of_lt_of_eq (Nat.lt_succ_self _) hnext.symm, hbears' _ _ hbears, hshows' _ hshows⟩
  · obtain ⟨hfault, -, rfl⟩ := hfault
    exact ⟨hfault, hplaced.discard⟩

/-- Pointing the dispatch tables at a range of a tier violates nothing of the indexes. -/
theorem redirectRange_ensures (block : Block) (range : CodeRange) (tables : DispatchTables) :
    (redirectRange block range).Ensures tables (fun _ _ => True) (fun fault _ => fault.ofMap = false) := by
  rw [redirectRange]
  split
  · exact (DispatchTables.setTiering_ensures _ _ _).mono (fun _ _ _ => trivial) (fun _ _ h => h)
  · exact (DispatchTables.setJitEntryIfEmpty_ensures _ _ _).bind
      (fun _ _ _ => (Op.ensures_pure _).mpr trivial) (fun _ _ h => h.2)
  · exact (Op.ensures_pure _).mpr trivial

/-- Offering the jit entries of stubs violates nothing of the indexes. -/
theorem offerRange_ensures (block : Block) (range : CodeRange) (tables : DispatchTables) :
    (offerRange block range).Ensures tables (fun _ _ => True) (fun fault _ => fault.ofMap = false) := by
  rw [offerRange]
  split
  · exact (DispatchTables.setJitEntryIfEmpty_ensures _ _ _).bind
      (fun _ _ _ => (Op.ensures_pure _).mpr trivial) (fun _ _ h => h.2)
  · exact (Op.ensures_pure _).mpr trivial

/-- Going through code ranges to change the dispatch tables leaves the module in step. -/
theorem forM_onDispatch_inStep (h : s.InStep since placed others) (ranges : List CodeRange)
    {round : CodeRange → Op DispatchTables Unit}
    (hround : ∀ range tables, (round range).Ensures tables (fun _ _ => True)
      (fun fault _ => fault.ofMap = false)) :
    (ranges.forM fun range => onDispatch (round range)).Ensures s (fun _ t => t.InStep since placed others)
      (fun fault t => fault.ofMap = false ∧ t.InStep since placed others) :=
  Op.Ensures.forM (fun range _ _ ht => (onDispatch_sameIndexes (hround range _)).mono
    (fun _ _ hu => ht.congr hu) (fun _ _ hu => ⟨hu.1, ht.congr hu.2⟩)) h

/-- Pointing the dispatch tables at a published tier leaves the module in step. -/
theorem redirect_inStep (h : s.InStep since placed others) (tier2 : Block) (stubIndex : Option Nat) :
    (redirect tier2 stubIndex).Ensures s (fun _ t => t.InStep since placed others)
      (fun fault t => fault.ofMap = false ∧ t.InStep since placed others) := by
  refine (forM_onDispatch_inStep h _ (redirectRange_ensures tier2)).bind (fun _ t ht => ?_)
    (fun _ _ h => h)
  cases stubIndex with
  | none => exact (Op.ensures_pure _).mpr ht
  | some index =>
    rw [Op.ensures_bind, ensures_current]
    split
    · exact (Op.ensures_violate _).mpr ⟨rfl, ht⟩
    · exact forM_onDispatch_inStep ht _ (offerRange_ensures _)

/-- Whether the published tier of a module bears the code that was compiled for it. -/
def HasPublished (s : Running) (compiled : CompiledBlock) (plan : PatchPlan) : Prop :=
  ∃ tier2, s.code.tier2 = .published tier2 ∧ s.engine.memory.Bears tier2 compiled plan

/-- What an install does once the tier has been built: it adds the tier, has its stubs made anew,
publishes it and points the dispatch tables at it. -/
def finishTier (compiler : StubCompiler) (tier2 : Block) : Op Running Unit := do
  let _ ← addBlock tier2
  let stubIndex ← Op.onFailure (upgradeStubs compiler tier2) (popBlock tier2)
  change (·.withTier2 (.published tier2))
  redirect tier2 stubIndex

/-- An install builds the tier before it does anything else. -/
theorem installTier_eq (plan : PatchPlan) (compiled : CompiledBlock) :
    installTier compiler plan compiled = (do
      let tier2 ← buildOptimized plan compiled
      finishTier compiler tier2) := rfl

/-- A tier that has been built becomes the last block of its module and is published in step. If that
fails then the tier waits again, apart from everything else. -/
theorem finishTier_inStep {tier2 : Block} (h : s.InStep since (tier2 :: placed) others)
    (hserial : ∀ other ∈ s.code.blocks ++ others.flatMap (·.blocks), other.serial ≠ tier2.serial)
    (hlt : tier2.serial < s.engine.nextSerial) :
    (finishTier compiler tier2).Ensures s
      (fun _ t => t.InStep since placed others ∧ t.code.tier2 = .published tier2)
      (fun fault t => fault.ofMap = false ∧ t.InStep since placed others ∧
        (fault.isViolation = false → t.InStep since (tier2 :: placed) others)) := by
  refine (addBlock_inStep h hserial hlt).bind (fun index t ht => ?_)
    (fun fault t ht => ⟨Fault.ofMap_of_not_isViolation ht.1, ht.2.1.discard, fun _ => ht.2.1⟩)
  obtain ⟨ht, hblocks, -⟩ := ht
  have hupgrade : (Op.onFailure (upgradeStubs compiler tier2) (popBlock tier2)).Ensures t
      (fun _ u => u.InStep since placed others)
      (fun fault u => fault.ofMap = false ∧ u.InStep since placed others ∧
        (fault.isViolation = false → u.InStep since (tier2 :: placed) others)) := by
    refine (Op.ensures_onFailure _ _).mpr ((upgradeStubs_inStep ht tier2).mono (fun _ _ hu => hu)
      (fun fault u hu => ?_))
    obtain ⟨hfault, hu, hsame⟩ := hu
    cases fault with
    | violation violation => exact ⟨hfault, hu, nofun⟩
    | failure failure =>
      exact (popBlock_inStep hu (hsame.trans hblocks)).mono
        (fun _ v hv => ⟨rfl, hv.1.discard, fun _ => hv.1⟩) (fun _ _ h => h.elim)
  refine hupgrade.bind (fun stubIndex u hu => ?_) (fun _ _ h => h)
  rw [Op.ensures_bind, ensures_change]
  -- From the publication on there are no failures, so that the tier is never taken back.
  refine ((redirect_inStep (hu.withTier2 _) tier2 stubIndex).and
    ((redirect_content tier2 stubIndex).and (isViolation_of_redirect tier2 stubIndex))).mono
    (fun _ v hv => ⟨hv.1, ?_⟩) (fun fault v hv => ⟨hv.1.1, hv.1.2, fun hfailed => ?_⟩)
  · obtain ⟨-, ⟨dispatch, hcontent⟩, -⟩ := hv
    exact (congrArg ModuleCode.tier2 hcontent :)
  · rw [hv.2.2] at hfailed
    contradiction

/-- An install that has begun adds the tier and its stubs in step, or takes the tier back. -/
theorem installTier_inStep (h : s.InStep since placed others) (plan : PatchPlan)
    (compiled : CompiledBlock) :
    (installTier compiler plan compiled).Ensures s
      (fun _ t => t.InStep since placed others ∧ t.HasPublished compiled plan)
      (fun fault t => fault.ofMap = false ∧ t.InStep since placed others) := by
  rw [installTier_eq]
  refine (buildOptimized_inStep h plan compiled).bind (fun tier2 t ht => ?_) (fun _ _ h => h)
  obtain ⟨ht, hcode, hserial, hlt, hbears, -⟩ := ht
  -- From here on memory keeps what the new tier holds.
  exact (finishTier_inStep ht.now (hcode ▸ hserial) hlt).mono
    (fun _ u hu => ⟨hu.1.before ht.kept, tier2, hu.2,
      hbears.keeps (ht.hosted tier2 List.mem_cons_self) hu.1.kept⟩)
    (fun _ u hu => ⟨hu.1, hu.2.1.before ht.kept⟩)

/-- An install leaves the module in step, whether or not it succeeds. -/
theorem installOptimized_inStep (h : s.InStep since placed others) (plan : PatchPlan)
    (compiled : CompiledBlock) :
    (installOptimized compiler plan compiled).Ensures s
      (fun _ t => t.InStep since placed others ∧ t.HasPublished compiled plan)
      (fun fault t => fault.ofMap = false ∧ t.InStep since placed others) := by
  refine (beginInstall_sameIndexes _).bind (fun _ t ht => ?_) (fun _ t ht => ⟨ht.1, h.congr ht.2⟩)
  refine (Op.ensures_onFailure _ _).mpr ((installTier_inStep (h.congr ht) plan compiled).mono
    (fun _ _ hu => hu) (fun fault u hu => ?_))
  cases fault with
  | violation violation => exact hu
  | failure failure => exact (ensures_change _).mpr ⟨rfl, hu.2.withTier2 _⟩

end CompiledCode.Running

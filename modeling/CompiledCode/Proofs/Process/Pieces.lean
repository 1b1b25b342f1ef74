import CompiledCode.Proofs.ModuleCode.Batches
import CompiledCode.Proofs.Process.Calls

/-!
# What new blocks hold

A call that succeeds may add a block of stubs, and an install that succeeds adds a tier before it.
Each of them holds what a compiler has made, patched for the address of the block with the symbols
and the trap handler of the module, and goes on holding it until the call is over. A call that fails
adds no block.
-/

namespace CompiledCode

/-- Whether a module has the blocks that it had, or one more, of stubs that a compiler made. -/
def ModuleCode.GainsStubs (before : ModuleCode) (compiler : StubCompiler) (after : Running) :
    Prop :=
  after.code.blocks = before.blocks ∨
    ∃ tier requests stubs block, compiler.compile tier requests = .ok stubs ∧
      after.code.blocks = before.blocks ++ [block] ∧
      after.engine.memory.Shows block (.ofStubs stubs before.symbols before.trapCode)

namespace Running

variable {s t u : Running} {since : Memory} {placed : List Block} {others : List ModuleCode}
  {compiler : StubCompiler} {tier : Block} {requests : List StubRequest} {before : ModuleCode}

/-- A new block of stubs stays what it is as long as no claim is given back. -/
theorem gainsStubs_keeps (h : before.GainsStubs compiler t) (ht : t.InStep since placed others)
    (hkeeps : t.engine.memory.Keeps u.engine.memory) (hblocks : u.code.blocks = t.code.blocks) :
    before.GainsStubs compiler u := by
  rcases h with hsame | ⟨tier, requests, stubs, block, hcompile, hadded, hshows⟩
  · exact .inl (hblocks.trans hsame)
  · have hin : block ∈ t.code.blocks := by
      rw [hadded]
      exact List.mem_append_right _ List.mem_cons_self
    have hhosts := ht.hosted block (List.mem_append_right _ (List.mem_append_left _ hin))
    exact .inr ⟨tier, requests, stubs, block, hcompile, hblocks.trans hadded,
      hshows.keeps hhosts hkeeps⟩

/-- Stubs that are made are in a block of their own, as the compiler made them. -/
theorem createStubs_gains (h : s.InStep since placed others) :
    (createStubs compiler requests tier).Ensures s
      (fun _ t => s.code.GainsStubs compiler t) (fun _ _ => True) := by
  have hcompiled : (compileStubs compiler tier requests).Ensures s
      (fun stubs t => compiler.compile tier requests = .ok stubs ∧ s.SameIndexes t ∧
        s.code.Marked compiler t.code) (fun _ _ => True) :=
    (compileStubs_made.and (compileStubs_sameIndexes.and compileStubs_marked)).mono
      (fun _ _ h => ⟨h.1.1, h.2⟩) (fun _ _ _ => trivial)
  refine hcompiled.during.bind (fun stubs t ht => ?_) (fun _ _ _ => trivial)
  obtain ⟨hcompile, hsame, calls, tier2, -, hcontent⟩ := ht
  have hsymbols : t.code.symbols = s.code.symbols := (congrArg ModuleCode.symbols hcontent :)
  have htrap : t.code.trapCode = s.code.trapCode := (congrArg ModuleCode.trapCode hcontent :)
  refine (placeStubs_inStep (h.congr hsame) stubs).mono (fun _ u hu => ?_) (fun _ _ _ => trivial)
  obtain ⟨-, block, hblocks, hshows⟩ := hu
  rw [hsymbols, htrap] at hshows
  rw [hsame.blocks] at hblocks
  exact .inr ⟨tier, requests, stubs, block, hcompile, hblocks, hshows⟩

/-- The first stub of a function is in a block of its own. -/
theorem createStub_gains (h : s.InStep since placed others) (exportIndex : Nat)
    (entry : FuncExport) :
    (createStub compiler exportIndex entry tier).Ensures s
      (fun _ t => s.code.GainsStubs compiler t) (fun _ _ => True) := by
  refine createStub_ensures (fun _ _ => trivial)
    (fun bytes => (grow_inStep h bytes).mono (fun _ _ ht => ht) (fun _ _ _ => trivial))
    (fun _ _ _ => trivial) fun t position address ht _ _ => ?_
  obtain ⟨hgrown, hcode⟩ := ht
  rw [← hcode]
  refine ((createStubs_gains hgrown).and (createStubs_inStep hgrown)).mono (fun result u hu => ?_)
    (fun _ _ _ => trivial)
  obtain ⟨hgains, hu⟩ := hu
  refine fileStub_ensures (fun _ => trivial) fun found stubs _ _ =>
    (offerJitEntry_sameIndexes _ _ _).mono (fun _ v hv => ⟨fun _ _ => ?_, fun _ _ => trivial⟩)
      (fun _ _ _ => trivial)
  exact gainsStubs_keeps hgains hu (hu.sound.keeps (by rw [hv.engine])) hv.blocks

/-- The interpreter entry of a function is found, or is in a new block of stubs. -/
theorem interpEntry_gains (h : s.InStep since placed others) (func : Nat) :
    (interpEntry compiler func).Ensures s
      (fun _ t => s.code.GainsStubs compiler t) (fun _ _ => True) :=
  interpEntry_ensures (.inl rfl) (fun _ _ => trivial) fun _ _ _ => (createStub_gains h _ _).during

/-- Stubs that are made anew are in one new block, if there are any. -/
theorem upgradeStubs_gains (h : s.InStep since placed others) (tier2 : Block) :
    (upgradeStubs compiler tier2).Ensures s
      (fun _ t => s.code.GainsStubs compiler t) (fun _ _ => True) := by
  refine upgradeStubs_ensures (fun _ => .inl rfl)
    (fun bytes => (grow_inStep h bytes).mono (fun _ _ ht => ht) (fun _ _ _ => trivial))
    (fun _ _ _ => trivial) fun t requests ht _ => ?_
  obtain ⟨hgrown, hcode⟩ := ht
  rw [← hcode]
  exact (createStubs_gains hgrown).mono (fun _ _ hu => hu) (fun _ _ _ => trivial)

/-- Whether a module has got an optimized tier that holds what was compiled, and stubs for it. -/
def GainsTier (before : ModuleCode) (compiler : StubCompiler) (compiled : CompiledBlock)
    (plan : PatchPlan) (after : Running) : Prop :=
  ∃ tier2, after.code.tier2 = .published tier2 ∧
    after.engine.memory.Shows tier2
      (.ofBlock compiled plan before.symbols (some before.sharedStubs)) ∧
    (before.withBlock tier2).GainsStubs compiler after

/-- An install that has begun adds the tier and its stubs. -/
theorem installTier_gains (h : s.InStep since placed others) (plan : PatchPlan)
    (compiled : CompiledBlock) :
    (installTier compiler plan compiled).Ensures s
      (fun _ t => GainsTier s.code compiler compiled plan t) (fun _ _ => True) := by
  refine (buildOptimized_inStep h plan compiled).bind (fun tier2 t ht => ?_) (fun _ _ _ => trivial)
  obtain ⟨ht, hcode, hserial, hlt, -, hshows⟩ := ht
  refine ((addBlock_inStep ht.now (hcode ▸ hserial) hlt).and (addBlock_content tier2)).bind
    (fun index u hu => ?_) (fun _ _ _ => trivial)
  obtain ⟨⟨hu, hblocks, -⟩, -, hcontent⟩ := hu
  rw [hcode] at hblocks hcontent
  have hsymbols : u.code.symbols = s.code.symbols := (congrArg ModuleCode.symbols hcontent :)
  have htrap : u.code.trapCode = s.code.trapCode := (congrArg ModuleCode.trapCode hcontent :)
  have hupgrade : (Op.onFailure (upgradeStubs compiler tier2) (popBlock tier2)).Ensures u
      (fun _ v => v.InStep t.engine.memory placed others ∧ u.code.GainsStubs compiler v)
      (fun _ _ => True) :=
    (((upgradeStubs_inStep hu tier2).and (upgradeStubs_gains hu tier2)).mono (fun _ _ hv => hv)
      (fun _ _ _ => trivial)).onFailure _
  refine hupgrade.bind (fun stubIndex v hv => ?_) (fun _ _ _ => trivial)
  obtain ⟨hv, hgains⟩ := hv
  rw [Op.ensures_bind, ensures_change]
  have hpublished := hv.withTier2 (.published tier2)
  refine ((redirect_inStep hpublished.now tier2 stubIndex).and
    (redirect_content tier2 stubIndex)).mono (fun _ w hw => ?_) (fun _ _ _ => trivial)
  obtain ⟨hw, dispatch, hafter⟩ := hw
  have hlater : u.code.GainsStubs compiler w :=
    gainsStubs_keeps hgains hv hw.kept (congrArg ModuleCode.blocks hafter :)
  refine ⟨tier2, (congrArg ModuleCode.tier2 hafter :), ?_, ?_⟩
  · rw [← hcode]
    exact hcode ▸ hshows.keeps (ht.hosted tier2 List.mem_cons_self) (hv.kept.trans hw.kept)
  · rw [ModuleCode.GainsStubs, hblocks, hsymbols, htrap] at hlater
    exact hlater

/-- An install that succeeds adds the tier and its stubs. -/
theorem installOptimized_gains (h : s.InStep since placed others) (plan : PatchPlan)
    (compiled : CompiledBlock) :
    (installOptimized compiler plan compiled).Ensures s
      (fun _ t => GainsTier s.code compiler compiled plan t) (fun _ _ => True) := by
  refine ((beginInstall_sameIndexes _).and (beginInstall_ensures _)).bind (fun _ t ht => ?_)
    (fun _ _ _ => trivial)
  obtain ⟨hsame, -, -, -, rfl⟩ := ht
  refine (Op.ensures_onFailure _ _).mpr ((installTier_gains (h.congr hsame) plan compiled).mono
    (fun _ _ hu => hu) (fun fault u _ => ?_))
  cases fault with
  | violation violation => trivial
  | failure failure => exact (ensures_change _).mpr trivial

end Running

end CompiledCode

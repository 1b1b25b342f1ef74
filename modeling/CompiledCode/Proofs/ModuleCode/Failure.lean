import CompiledCode.Proofs.ModuleCode.Refusal

/-!
# What calls leave of the code of a module

A call that succeeds adds blocks and changes the entry stubs and dispatch tables; one that fails
leaves nothing behind but notes of what the stub compiler was asked. The compiler is any one. If it
asks for an install itself where nobody else has begun one, then that install is under way
afterwards, which nobody can tell as long as no other install is tried.
-/

namespace CompiledCode

/-- Whether the optimized tier is as far as before, or the compiler has asked for its install. -/
def StubCompiler.MayHaveAsked (compiler : StubCompiler) (before after : OptimizedTier) : Prop :=
  after = before ∨
    before = .absent ∧ after = .building ∧ ∃ block, compiler.asksForInstall block = true

/-- An install that is under way is not begun again. -/
theorem StubCompiler.MayHaveAsked.eq_of_ne {compiler : StubCompiler} {before after : OptimizedTier}
    (h : compiler.MayHaveAsked before after) (hbefore : before ≠ .absent) : after = before :=
  h.resolve_right fun hasked => hbefore hasked.1

/-- Whether the optimized tier has been published cannot depend on what the compiler asks for. -/
theorem StubCompiler.MayHaveAsked.block? {compiler : StubCompiler} {before after : OptimizedTier}
    (h : compiler.MayHaveAsked before after) : after.block? = before.block? := by
  rcases h with rfl | ⟨rfl, rfl, -⟩
  · rfl
  · rfl

namespace ModuleCode

/-- Whether there is nothing of a call but what the stub compiler was asked and has asked for. -/
def Marked (compiler : StubCompiler) (before after : ModuleCode) : Prop :=
  ∃ calls tier2, compiler.MayHaveAsked before.tier2 tier2 ∧
    after.content = { before.content with calls, tier2 }

/-- Whether a call has done no more than to add blocks and to fill stubs and dispatch tables. -/
def Enlarged (compiler : StubCompiler) (before after : ModuleCode) : Prop :=
  ∃ calls tier2 more lazyExports dispatch, compiler.MayHaveAsked before.tier2 tier2 ∧
    after.content = { before.content with
      calls, tier2, blocks := before.blocks ++ more, lazyExports, dispatch }

variable {compiler : StubCompiler} {before after : ModuleCode}

/-- Code with the same content has no marks. -/
theorem Marked.of_content (h : after.content = before.content) : before.Marked compiler after :=
  ⟨before.calls, before.tier2, .inl rfl, h⟩

/-- Code that is marked is enlarged by nothing. -/
theorem Marked.enlarged (h : before.Marked compiler after) : before.Enlarged compiler after := by
  obtain ⟨calls, tier2, hasked, h⟩ := h
  refine ⟨calls, tier2, [], before.lazyExports, before.dispatch, hasked, ?_⟩
  rw [h, List.append_nil]
  rfl

/-- Code with one more block is enlarged, whatever exports and dispatch tables there are then. -/
theorem Enlarged.of_stubs {stubs : ModuleCode} {calls : List StubCall} {tier2 : OptimizedTier}
    {block : Block} {lazyExports : List LazyExport} {dispatch : DispatchTables}
    (hasked : compiler.MayHaveAsked before.tier2 tier2)
    (hstubs : stubs.content =
      { before.content with calls, tier2, blocks := before.blocks ++ [block] })
    (h : after.content = (stubs.content.withExports lazyExports).withDispatch dispatch) :
    before.Enlarged compiler after :=
  ⟨calls, tier2, [block], lazyExports, dispatch, hasked, by rw [h, hstubs]; rfl⟩

end ModuleCode

namespace Running

open ModuleCode

variable {s : Running} {compiler : StubCompiler} {tier tier2 : Block} {requests : List StubRequest}

/-- A call of the stub compiler adds a mark to others. -/
theorem callCompiler_marked {t : Running} (ht : s.code.Marked compiler t.code)
    (sawOptimized : Bool) (install : Option (Option Failure)) :
    (callCompiler compiler tier requests sawOptimized install).Ensures t
      (fun _ u => s.code.Marked compiler u.code) (fun _ u => s.code.Marked compiler u.code) := by
  obtain ⟨calls, tier2, hasked, ht⟩ := ht
  have hmarked (call : StubCall) : s.code.Marked compiler (t.code.withCall call) :=
    ⟨_, tier2, hasked, by rw [content_withCall, ht]; rfl⟩
  refine (callCompiler_ensures _ _).mono (fun _ u hu => ?_) (fun _ u hu => ?_)
  · obtain ⟨call, -, rfl⟩ := hu
    exact hmarked call
  · obtain ⟨-, call, -, rfl⟩ := hu
    exact hmarked call

/-- The stub compiler leaves nothing but marks, however it ends. -/
theorem compileStubs_marked :
    (compileStubs compiler tier requests).Ensures s (fun _ t => s.code.Marked compiler t.code)
      (fun _ t => s.code.Marked compiler t.code) := by
  refine compileStubs_ensures (fun _ _ _ => .of_content rfl) fun _ _ tier2 hasked => ?_
  have hmarked : compiler.MayHaveAsked s.code.tier2 tier2 :=
    hasked.imp_right fun ⟨hasks, habsent, hbuilding⟩ => ⟨habsent, hbuilding, tier, hasks⟩
  exact callCompiler_marked ⟨s.code.calls, tier2, hmarked, rfl⟩ _ _

/-- Stubs that are made are one more block; else there are marks at most. -/
theorem createStubs_enlarged :
    (createStubs compiler requests tier).Ensures s
      (fun _ t => ∃ calls tier2 block, compiler.MayHaveAsked s.code.tier2 tier2 ∧
        t.code.content = { s.code.content with calls, tier2, blocks := s.code.blocks ++ [block] })
      (fun _ t => s.code.Marked compiler t.code) := by
  refine compileStubs_marked.during.bind (fun stubs t ht => ?_) (fun _ _ ht => ht)
  obtain ⟨calls, tier2, hasked, ht⟩ := ht
  refine (placeStubs_content stubs).mono (fun _ u hu => ?_) (fun _ u hu => ?_)
  · obtain ⟨block, -, -, -, hu⟩ := hu
    exact ⟨calls, tier2, block, hasked, by rw [hu, ht]; rfl⟩
  · exact ⟨calls, tier2, hasked, hu.trans ht⟩

/-- The first stub of a function comes with a block; else there are marks at most. -/
theorem createStub_enlarged (exportIndex : Nat) (entry : FuncExport) :
    (createStub compiler exportIndex entry tier).Ensures s
      (fun _ t => s.code.Enlarged compiler t.code)
      (fun fault t => fault.isViolation = false → s.code.Marked compiler t.code) := by
  refine createStub_ensures (motive := fun t => t.code = s.code) (fun _ _ => nofun)
    (fun _ => (onMemory_code _).mono (fun _ _ h => h) (fun _ t ht _ => .of_content (by rw [ht])))
    (fun t _ ht _ => .of_content (by rw [ht])) fun t position address ht _ _ => ?_
  rw [← ht]
  refine createStubs_enlarged.mono (fun result u hu => ?_) (fun _ u hu _ => hu)
  obtain ⟨calls, tier2, block, hasked, hu⟩ := hu
  refine fileStub_ensures (fun _ => nofun) fun found stubs _ _ =>
    (offerJitEntry_content _ _ _).mono (fun _ v hv => ⟨fun _ _ => ?_, fun _ _ => nofun⟩)
      (fun fault v hv hfailed => ?_)
  · exact .of_stubs hasked hu hv
  · rw [hv.1] at hfailed
    contradiction

/-- An interpreter entry is found, or made with a block; else there are marks at most. -/
theorem interpEntry_enlarged (func : Nat) :
    (interpEntry compiler func).Ensures s (fun _ t => s.code.Enlarged compiler t.code)
      (fun fault t => fault.isViolation = false → s.code.Marked compiler t.code) :=
  interpEntry_ensures (Marked.enlarged (.of_content rfl)) (by rintro violation - ⟨⟩)
    fun _ _ _ => (createStub_enlarged _ _).during_of fun _ _ h _ => h rfl

/-- Stubs that are made anew come with a block; else there are marks at most. -/
theorem upgradeStubs_enlarged :
    (upgradeStubs compiler tier2).Ensures s (fun _ t => s.code.Enlarged compiler t.code)
      (fun _ t => s.code.Marked compiler t.code) := by
  refine upgradeStubs_ensures (motive := fun t => t.code = s.code)
    (fun _ => Marked.enlarged (.of_content rfl))
    (fun _ => (onMemory_code _).mono (fun _ _ h => h) (fun _ t ht => .of_content (by rw [ht])))
    (fun t _ ht => .of_content (by rw [ht])) fun t requests ht _ => ?_
  rw [← ht]
  refine createStubs_enlarged.mono (fun result u hu => ?_) (fun _ _ hu => hu)
  obtain ⟨calls, tier2, block, hasked, hu⟩ := hu
  exact .of_stubs hasked hu
    (show _ = (u.code.content.withExports _).withDispatch u.code.dispatch from rfl)

/-- The code of a module with a tier that is under way as its last block. -/
theorem installTier_enlarged (hbuilding : s.code.tier2 = .building) (plan : PatchPlan)
    (compiled : CompiledBlock) :
    (installTier compiler plan compiled).Ensures s
      (fun _ t => ∃ tier2 calls more lazyExports dispatch, t.code.content = { s.code.content with
        tier2 := .published tier2, blocks := s.code.blocks ++ tier2 :: more, calls, lazyExports, dispatch })
      (fun fault t => fault.isViolation = false →
        ∃ calls, t.code.content = { s.code.content with calls }) := by
  have hne : s.code.tier2 ≠ .absent := by
    rw [hbuilding]
    nofun
  refine (buildOptimized_ensures plan compiled).bind (fun tier2 t ht => ?_)
    (fun _ t ht _ => ⟨s.code.calls, by rw [ht]; rfl⟩)
  obtain ⟨-, -, ht⟩ := ht
  rw [← ht] at hne ⊢
  refine (addBlock_content tier2).bind (fun index u hu => ?_) (fun _ u hu _ => ⟨t.code.calls, hu⟩)
  obtain ⟨-, hu⟩ := hu
  have htier2 : u.code.tier2 = t.code.tier2 := (congrArg ModuleCode.tier2 hu :)
  have hblocks : u.code.blocks = t.code.blocks ++ [tier2] := (congrArg ModuleCode.blocks hu :)
  rw [← htier2] at hne
  refine (Op.ensures_bind _ _).mpr ((Op.ensures_onFailure _ _).mpr (upgradeStubs_enlarged.mono
    (fun stubIndex v hv => ?_) (fun fault v hv => ?_)))
  · obtain ⟨calls, now, more, lazyExports, dispatch, hasked, hv⟩ := hv
    rw [Op.ensures_bind, ensures_change]
    refine ((redirect_content tier2 stubIndex).and (isViolation_of_redirect tier2 stubIndex)).mono
      (fun _ w hw => ?_) (fun fault w hw hfailed => ?_)
    · obtain ⟨⟨later, hw⟩, -⟩ := hw
      refine ⟨tier2, calls, more, lazyExports, later, ?_⟩
      rw [hw, content_withTier2, hv, hu, hblocks, List.append_assoc]
      rfl
    · rw [hw.2] at hfailed
      contradiction
  · cases fault with
    | violation violation => exact nofun
    | failure failure =>
      obtain ⟨calls, now, hasked, hv⟩ := hv
      obtain rfl := hasked.eq_of_ne hne
      have hundone : ∀ w : Running, w.code.content = v.code.content.withoutLast →
          w.code.content = { t.code.content with calls } := by
        intro w hw
        rw [hw, hv, hu, htier2]
        simp [ModuleCode.withoutLast, ModuleCode.withBlock, ModuleCode.content]
      exact (popBlock_content tier2).mono (fun _ w hw _ => ⟨calls, hundone w hw⟩)
        (fun _ w hw _ => ⟨calls, hundone w hw⟩)

/-- An install publishes a new block, or is refused, or leaves nothing but marks. -/
theorem installOptimized_enlarged (plan : PatchPlan) (compiled : CompiledBlock) :
    (installOptimized compiler plan compiled).Ensures s
      (fun _ t => ∃ tier2 calls more lazyExports dispatch, t.code.content = { s.code.content with
        tier2 := .published tier2, blocks := s.code.blocks ++ tier2 :: more, calls, lazyExports, dispatch })
      (fun fault t => fault.isViolation = false →
        fault = .failure .refusal ∧ t = s ∨
          s.code.tier2 = .absent ∧ ∃ calls, t.code.content = { s.code.content with calls }) := by
  refine ((beginInstall_ensures compiled.kind).and (beginInstall_refuses compiled.kind)).bind
    (fun _ t ht => ?_) (fun fault t ht hfailed => ?_)
  · obtain ⟨⟨-, -, habsent, rfl⟩, -⟩ := ht
    refine (Op.ensures_onFailure _ _).mpr ((installTier_enlarged rfl plan compiled).mono (fun _ _ h => h)
      (fun fault u hu => ?_))
    cases fault with
    | violation violation => exact nofun
    | failure failure =>
      obtain ⟨calls, hu⟩ := hu rfl
      refine (ensures_change _).mpr fun _ => .inr ⟨habsent, calls, ?_⟩
      rw [content_withTier2, hu, ← habsent]
      rfl
  · exact .inl ⟨ht.2 hfailed, ht.1.1⟩

end Running

end CompiledCode

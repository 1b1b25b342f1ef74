import CompiledCode.Proofs.ModuleCode.Failure
import CompiledCode.Proofs.Process.Run
import CompiledCode.Stubs.Layout

/-!
# Calls that fail

Whichever step of a call fails, what has been done before is undone or cannot be noticed: memory may
have been claimed in vain, a segment for stubs may be new, and the stub compiler may have been
called, but there are the same blocks, entry stubs and dispatch tables, and lookups answer as
before. Lookups need no undoing of their own, as the indexes are in step with the blocks.

At rest no install is under way, so that only a published tier keeps another one from being
installed.
-/

namespace CompiledCode

/-- Whether nothing that can be asked of a module or of the registry is answered differently. -/
structure Running.SameAnswers (s t : Running) : Prop where
  hasOptimized : t.code.hasOptimized = s.code.hasOptimized
  blocks : t.code.blocks = s.code.blocks
  lazyExports : t.code.lazyExports = s.code.lazyExports
  dispatch : t.code.dispatch = s.code.dispatch
  blockAt? : t.code.blockAt? = s.code.blockAt?
  funcRangeAt? : t.code.funcRangeAt? = s.code.funcRangeAt?
  callSiteAt? : t.code.callSiteAt? = s.code.callSiteAt?
  stackMapAt? : t.code.stackMapAt? = s.code.stackMapAt?
  tryNoteAt? : t.code.tryNoteAt? = s.code.tryNoteAt?
  trapSiteAt? : t.code.trapSiteAt? = s.code.trapSiteAt?
  unwindInfoAt? : t.code.unwindInfoAt? = s.code.unwindInfoAt?
  lookup : t.engine.registry.lookup = s.engine.registry.lookup
  lookupRange : t.engine.registry.lookupRange = s.engine.registry.lookupRange
  isCode : t.engine.isCode = s.engine.isCode

namespace Process

variable {s t : Running} {since : Memory} {placed : List Block} {others : List ModuleCode}
  {compiler : StubCompiler} {p q : Process}

/-- Lookups in a module answer alike as long as it has the same blocks. -/
theorem blockAt?_congr (hs : s.InStep since placed others) (ht : t.InStep since placed others)
    (hblocks : t.code.blocks = s.code.blocks) : t.code.blockAt? = s.code.blockAt? := by
  funext pc
  refine Option.ext fun block => ?_
  rw [InStep.blockAt?_eq_some_iff ht List.mem_cons_self, InStep.blockAt?_eq_some_iff hs List.mem_cons_self,
    hblocks]

/-- Lookups in the registry answer alike as long as all modules have the same blocks. -/
theorem lookup_congr (hs : s.InStep since placed others) (ht : t.InStep since placed others)
    (hblocks : t.code.blocks = s.code.blocks) : t.engine.registry.lookup = s.engine.registry.lookup := by
  funext pc
  refine Option.ext fun block => ?_
  rw [InStep.lookup_eq_some_iff ht, InStep.lookup_eq_some_iff hs, blocks, blocks, List.flatMap_cons,
    List.flatMap_cons, hblocks]

/-- Marks on the code of a module are not noticed. -/
theorem sameAnswers_of_marked (hs : s.InStep since placed others) (ht : t.InStep since placed others)
    (hmarked : s.code.Marked compiler t.code) : s.SameAnswers t := by
  obtain ⟨calls, tier2, hasked, hcontent⟩ := hmarked
  have hblocks : t.code.blocks = s.code.blocks := (congrArg ModuleCode.blocks hcontent :)
  have htier1 : t.code.tier1 = s.code.tier1 := (congrArg ModuleCode.tier1 hcontent :)
  have htier2 : t.code.tier2.block? = s.code.tier2.block? := by
    rw [← hasked.block?]
    exact (congrArg (·.tier2.block?) hcontent :)
  have hblockAt := blockAt?_congr hs ht hblocks
  have hlookup := lookup_congr hs ht hblocks
  exact
    { hasOptimized := by rw [ModuleCode.hasOptimized, htier2, ModuleCode.hasOptimized]
      blocks := hblocks
      lazyExports := (congrArg ModuleCode.lazyExports hcontent :)
      dispatch := (congrArg ModuleCode.dispatch hcontent :)
      blockAt? := hblockAt
      funcRangeAt? := by
        funext pc
        rw [ModuleCode.funcRangeAt?, htier1, htier2, ModuleCode.funcRangeAt?]
      callSiteAt? := by
        funext pc
        rw [ModuleCode.callSiteAt?, hblockAt, ModuleCode.callSiteAt?]
      stackMapAt? := by
        funext pc
        rw [ModuleCode.stackMapAt?, hblockAt, ModuleCode.stackMapAt?]
      tryNoteAt? := by
        funext pc
        rw [ModuleCode.tryNoteAt?, hblockAt, ModuleCode.tryNoteAt?]
      trapSiteAt? := by
        funext pc
        rw [ModuleCode.trapSiteAt?, hblockAt, ModuleCode.trapSiteAt?]
      unwindInfoAt? := by
        funext pc
        rw [ModuleCode.unwindInfoAt?, hblockAt, ModuleCode.unwindInfoAt?]
      lookup := hlookup
      lookupRange := by
        funext pc
        rw [RegionMap.lookupRange, hlookup, RegionMap.lookupRange]
      isCode := by
        funext pc
        rw [Engine.isCode, hlookup, Engine.isCode] }

/-- An entry that is requested leaves the optimized tier as far as it is. -/
theorem tier2_of_entry {result : Except Fault (FuncExport × Nat)} {func : Nat}
    (hasks : s.code.hasOptimized = true ∨ ∀ block, compiler.asksForInstall block = false)
    (hend : (Running.interpEntry compiler func).ending s = (result, t))
    (hcalm : ∀ violation, result ≠ .error (.violation violation)) : t.code.tier2 = s.code.tier2 := by
  have hsame {tier2 : OptimizedTier} (hasked : compiler.MayHaveAsked s.code.tier2 tier2) :
      tier2 = s.code.tier2 := by
    rcases hasked with hsame | ⟨habsent, -, block, hasked⟩
    · exact hsame
    · rcases hasks with hoptimized | hquiet
      · rw [ModuleCode.hasOptimized, habsent] at hoptimized
        contradiction
      · rw [hquiet block] at hasked
        contradiction
  have hafter := (Running.interpEntry_enlarged func).ending hend
  cases result with
  | ok found =>
    obtain ⟨calls, tier2, more, lazyExports, dispatch, hasked, hcontent⟩ := hafter
    exact (congrArg ModuleCode.tier2 hcontent :).trans (hsame hasked)
  | error fault =>
    cases fault with
    | violation violation => exact absurd rfl (hcalm violation)
    | failure failure =>
      obtain ⟨calls, tier2, hasked, hcontent⟩ := hafter rfl
      exact (congrArg ModuleCode.tier2 hcontent :).trans (hsame hasked)

/-- An install that has ended is not under way unless another one was. -/
theorem tier2_of_install {result : Except Fault Unit} {plan : PatchPlan} {compiled : CompiledBlock}
    (hidle : s.code.tier2 ≠ .building)
    (hend : (Running.installOptimized compiler plan compiled).ending s = (result, t))
    (hcalm : ∀ violation, result ≠ .error (.violation violation)) : t.code.tier2 ≠ .building := by
  have hafter := (Running.installOptimized_enlarged plan compiled).ending hend
  cases result with
  | ok found =>
    obtain ⟨tier2, calls, more, lazyExports, dispatch, hcontent⟩ := hafter
    have htier2 : t.code.tier2 = .published tier2 := (congrArg ModuleCode.tier2 hcontent :)
    rw [htier2]
    nofun
  | error fault =>
    cases fault with
    | violation violation => exact absurd rfl (hcalm violation)
    | failure failure =>
      obtain ⟨-, rfl⟩ | ⟨-, calls, hcontent⟩ := hafter rfl
      · exact hidle
      · have htier2 : t.code.tier2 = s.code.tier2 := (congrArg ModuleCode.tier2 hcontent :)
        rw [htier2]
        exact hidle

/-- Whether no install is under way. -/
def Idle (process : Process) : Prop := ∀ code ∈ process.codes, code.tier2 ≠ .building

/-- New module code has no install under way, and when a call is over there is none either. -/
theorem lasting_idle : Lasting fun code => code.tier2 ≠ .building where
  create hend := by
    rw [((ModuleCode.create_ensures ..).of_ok hend).1]
    nofun
  entry _ hasks hend hcalm hidle := by
    rw [tier2_of_entry hasks hend hcalm]
    exact hidle
  install _ hend hcalm hidle := tier2_of_install hidle hend hcalm
  dispatch _ hidle := hidle
  label _ hidle := hidle

/-- At rest no install is under way. -/
theorem Reachable.idle (h : Reachable p) : Idle p := lasting_idle.holds h

/-- At rest an install is refused only if the optimized tier has been published. -/
theorem Reachable.hasOptimized_of_refused (h : Reachable p) {code : ModuleCode} (hin : code ∈ p.codes)
    {plan : PatchPlan} {compiled : CompiledBlock} {t : Running}
    (hend : Running.installOptimized compiler plan compiled { engine := p.engine, code } =
      .error (.failure .refusal) t) : code.hasOptimized = true := by
  have habsent := Running.tier2_ne_of_refused hend
  have hbuilding := h.idle code hin
  rw [ModuleCode.hasOptimized]
  cases htier2 : code.tier2 with
  | absent => exact absurd htier2 habsent
  | building => exact absurd htier2 hbuilding
  | published block => rfl

/-- If a call fails on the code of a module, whatever the step, then the optimized tier, the blocks,
the entry stubs, the dispatch tables and all lookups are what they were. After an install that has
failed without being refused, later ones are not refused as long as none has succeeded. -/
theorem failed_calls_change_nothing (compiler : StubCompiler)
    (hreach : Reachable { engine := s.engine, placed, codes := s.code :: others }) :
    (∀ func failure t, Running.interpEntry compiler func s = .error (.failure failure) t →
      s.SameAnswers t) ∧
    (∀ plan compiled failure t,
      Running.installOptimized compiler plan compiled s = .error (.failure failure) t →
        s.SameAnswers t ∧
        (failure ≠ .refusal → t.code.hasOptimized = false ∧
          ∀ q, Relation.ReflTransGen Step { engine := t.engine, placed, codes := t.code :: others } q →
            ∀ later ∈ q.codes, later.hasOptimized = false →
              ∀ (compiler' : StubCompiler) (plan' : PatchPlan) (compiled' : CompiledBlock) (u : Running),
                Running.installOptimized compiler' plan' compiled' { engine := q.engine, code := later } ≠
                  .error (.failure .refusal) u)) := by
  have hs : s.InStep s.engine.memory placed others := hreach.inStep
  constructor
  · intro func failure t hend
    have ht := ((Running.interpEntry_inStep hs func).of_error hend).2
    exact sameAnswers_of_marked hs ht ((Running.interpEntry_enlarged func).of_error hend rfl)
  · intro plan compiled failure t hend
    have ht := ((Running.installOptimized_inStep hs plan compiled).of_error hend).2
    have hafter := (Running.installOptimized_enlarged plan compiled).of_error hend rfl
    have hmarked : s.code.Marked compiler t.code := by
      obtain ⟨-, rfl⟩ | ⟨-, calls, hcontent⟩ := hafter
      · exact .of_content rfl
      · exact ⟨calls, s.code.tier2, .inl rfl, hcontent⟩
    refine ⟨sameAnswers_of_marked hs ht hmarked, fun hfailed => ⟨?_, fun q hrun => ?_⟩⟩
    · obtain ⟨hrefused, -⟩ | ⟨habsent, calls, hcontent⟩ := hafter
      · exact absurd (Fault.failure.inj hrefused) hfailed
      · have htier2 : t.code.tier2 = s.code.tier2 := (congrArg ModuleCode.tier2 hcontent :)
        rw [ModuleCode.hasOptimized, htier2, habsent]
        rfl
    · have hq : Reachable q := by
        induction hrun with
        | refl => exact hreach.step (.install (Op.ending_of_error hend) (by rintro _ ⟨⟩))
        | tail _ hstep ih => exact ih.step hstep
      intro later hin hnone compiler' plan' compiled' u hrefused
      rw [hq.hasOptimized_of_refused hin hrefused] at hnone
      contradiction

end Process

/-- A stub compiler that always fails. -/
def StubCompiler.failing : StubCompiler where
  compile _ _ := .error { cause := .reported "no stubs" }

/-- A module with one function is loaded, whose entry stub fails to be made at first and is made then. An
optimized tier is registered, so that its code is known as such, but the stub cannot be made anew; tried
once more, the install succeeds. -/
theorem load_oneFunction_failing :
    ∃ (code : ModuleCode) (engine : Engine) (found : FuncExport × Nat) (tier2 : Block) (index : Nat)
      (failure failure' : Failure) (unmade made begun built registered failed installed : Running),
      ModuleCode.load {} .empty Image.oneFunction.toBytes {} = .ok code engine ∧
      Running.interpEntry .failing 0 { engine, code } = .error (.failure failure) unmade ∧
      Running.interpEntry (StubLayout.compiler {}) 0 unmade = .ok found made ∧
      Running.beginInstall .optimizedTier made = .ok () begun ∧
      Running.buildOptimized .oneFunction .oneFunctionOptimized begun = .ok tier2 built ∧
      tier2.contains 0x200000013000 = true ∧
      Running.addBlock tier2 built = .ok index registered ∧
      registered.engine.isCode 0x200000013000 = true ∧
      Running.installOptimized .failing .oneFunction .oneFunctionOptimized made =
        .error (.failure failure') failed ∧
      failure' ≠ .refusal ∧ failed.engine.isCode 0x200000013000 = false ∧
      (failed.code.funcRangeAt? 0x200000000000).isSome = true ∧
      Running.installOptimized (StubLayout.compiler {}) .oneFunction .oneFunctionOptimized failed =
        .ok () installed := by
  let pc := 0x200000013000
  let retry := Running.installOptimized (StubLayout.compiler {}) .oneFunction .oneFunctionOptimized
  have hends : (ModuleCode.load {} .empty Image.oneFunction.toBytes).succeeds {} (fun code engine =>
      (Running.interpEntry .failing 0).fails { engine, code } (fun _ unmade =>
        (Running.interpEntry (StubLayout.compiler {}) 0).succeeds unmade (fun _ made =>
          (Running.beginInstall .optimizedTier).succeeds made (fun _ begun =>
            (Running.buildOptimized .oneFunction .oneFunctionOptimized).succeeds begun fun tier2 built =>
              tier2.contains pc && (Running.addBlock tier2).succeeds built (fun _ registered =>
                registered.engine.isCode pc)) &&
          (Running.installOptimized .failing .oneFunction .oneFunctionOptimized).fails made
            (fun failure failed => failure ≠ .refusal && !failed.engine.isCode pc &&
              (failed.code.funcRangeAt? 0x200000000000).isSome && retry.succeeds failed fun _ _ => true)))) =
      true := by decide +kernel
  obtain ⟨code, engine, hload, hcalls⟩ := Op.exists_of_succeeds hends
  obtain ⟨failure, unmade, hentry, hcalls⟩ := Op.exists_of_fails hcalls
  obtain ⟨found, made, hmade, hinstalls⟩ := Op.exists_of_succeeds hcalls
  obtain ⟨hsteps, hinstall⟩ := Bool.and_eq_true_iff.mp hinstalls
  obtain ⟨_, begun, hbegin, hbuilds⟩ := Op.exists_of_succeeds hsteps
  obtain ⟨tier2, built, hbuild, htier2⟩ := Op.exists_of_succeeds hbuilds
  obtain ⟨hcontains, hadds⟩ := Bool.and_eq_true_iff.mp htier2
  obtain ⟨index, registered, hadd, hknown⟩ := Op.exists_of_succeeds hadds
  obtain ⟨failure', failed, hfails, htest⟩ := Op.exists_of_fails hinstall
  simp only [Bool.and_eq_true, Bool.not_eq_true', decide_eq_true_eq] at htest
  obtain ⟨⟨⟨hfailed, hforgotten⟩, hfound⟩, hretry⟩ := htest
  obtain ⟨_, installed, hretry, -⟩ := Op.exists_of_succeeds hretry
  exact ⟨code, engine, found, tier2, index, failure, failure', unmade, made, begun, built, registered, failed,
    installed, hload, hentry, hmade, hbegin, hbuild, hcontains, hadd, hknown, hfails, hfailed, hforgotten,
    hfound, hretry⟩

namespace Process

/-- In a module with one function, an entry changes nothing if its stub cannot be made, and nor does an
install that fails when the tier has already been registered: what had become known as code is not code any
more, and another install is not refused and succeeds. -/
theorem failed_calls_change_nothing_once_loaded :
    ∃ (tier2 : Block) (index : Nat) (found : FuncExport × Nat) (failure failure' : Failure)
      (loaded unmade made begun built registered failed installed : Running),
      Reachable { engine := loaded.engine, placed := [], codes := [loaded.code] } ∧
      Running.interpEntry .failing 0 loaded = .error (.failure failure) unmade ∧
      loaded.SameAnswers unmade ∧
      Running.interpEntry (StubLayout.compiler {}) 0 unmade = .ok found made ∧
      Reachable { engine := made.engine, placed := [], codes := [made.code] } ∧
      Running.beginInstall .optimizedTier made = .ok () begun ∧
      Running.buildOptimized .oneFunction .oneFunctionOptimized begun = .ok tier2 built ∧
      Running.addBlock tier2 built = .ok index registered ∧
      registered.engine.isCode 0x200000013000 = true ∧
      Running.installOptimized .failing .oneFunction .oneFunctionOptimized made =
        .error (.failure failure') failed ∧
      failure' ≠ .refusal ∧ made.SameAnswers failed ∧ failed.code.hasOptimized = false ∧
      failed.engine.isCode 0x200000013000 = false ∧
      (∀ compiler plan compiled u,
        Running.installOptimized compiler plan compiled failed ≠ .error (.failure .refusal) u) ∧
      Running.installOptimized (StubLayout.compiler {}) .oneFunction .oneFunctionOptimized failed =
        .ok () installed := by
  obtain ⟨code, engine, found, tier2, index, failure, failure', unmade, made, begun, built, registered, failed,
    installed, hload, hentry, hmade, hbegin, hbuild, -, hadd, hknown, hfails, hfailed, hforgotten, -, hretry⟩ :=
    load_oneFunction_failing
  have hloaded := reachable_start.step (.load hload)
  have hunmade := hloaded.step (.entry (.inr fun _ => rfl) (Op.ending_of_error hentry) (by rintro _ ⟨⟩))
  have hreach := hunmade.step (.entry (.inr fun _ => rfl) (Op.ending_of_ok hmade) (by rintro _ ⟨⟩))
  obtain ⟨hunnoticed, -⟩ := failed_calls_change_nothing (s := { engine, code }) .failing hloaded
  obtain ⟨-, hunfinished⟩ := failed_calls_change_nothing (s := made) .failing hreach
  obtain ⟨hsame, hafter⟩ := hunfinished _ _ _ _ hfails
  obtain ⟨hnone, hagain⟩ := hafter hfailed
  exact ⟨tier2, index, found, failure, failure', _, unmade, made, begun, built, registered, failed, installed,
    hloaded, hentry, hunnoticed _ _ _ hentry, hmade, hreach, hbegin, hbuild, hadd, hknown, hfails, hfailed,
    hsame, hnone, hforgotten, hagain _ .refl _ List.mem_cons_self hnone, hretry⟩

end Process

end CompiledCode

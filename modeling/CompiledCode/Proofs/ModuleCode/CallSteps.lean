import CompiledCode.Proofs.ModuleCode.Batches
import CompiledCode.Proofs.ModuleCode.Calls

/-!
# What one step of a call does

Every operation of a call either does its part or leaves the blocks, the entry stubs and the
tiers as they are; the only exception is a tier that is taken back and turns out not to be
the last block. All that is proved of interleaved calls is proved from this list.
-/

namespace CompiledCode

/-- Whether the code of a module differs from before in its dispatch tables at most, and in notes
of calls to the stub compiler for the given functions. -/
def ModuleCode.Undisturbed (funcs : List Nat) (before after : ModuleCode) : Prop :=
  ∃ notes dispatch, (∀ call ∈ notes, call.requests.map (·.func) = funcs) ∧
    after.content = { before.content with calls := before.calls ++ notes, dispatch }

/-- Whether the parts that are there from the start are what they were. -/
structure ModuleCode.SameBase (before after : ModuleCode) : Prop where
  sharedStubs : after.sharedStubs = before.sharedStubs
  tier1 : after.tier1 = before.tier1
  imports : after.imports = before.imports

/-- The parts stay the same step by step. -/
theorem ModuleCode.SameBase.trans {first second third : ModuleCode} (h : first.SameBase second)
    (h' : second.SameBase third) : first.SameBase third :=
  ⟨h'.sharedStubs.trans h.sharedStubs, h'.tier1.trans h.tier1, h'.imports.trans h.imports⟩

/-- The first stub of a function changes the stubs alone. -/
theorem ModuleCode.frame_of_withStub {before after : ModuleCode} {func : Nat} {kind : BlockKind}
    {stub : NewStub} {dispatch : DispatchTables}
    (h : after.content = (before.content.withStub func kind stub).withDispatch dispatch) :
    before.SameBase after ∧ after.tier2 = before.tier2 := by
  have hshared := congrArg ModuleCode.sharedStubs h
  have htier1 := congrArg ModuleCode.tier1 h
  have himports := congrArg ModuleCode.imports h
  have htier2 := congrArg ModuleCode.tier2 h
  dsimp only [content, withStub, withCall, withBlock, withExports, withDispatch] at *
  exact ⟨⟨hshared, htier1, himports⟩, htier2⟩

/-- The first stub of a function comes with a block and an export. -/
theorem ModuleCode.stubs_of_withStub {before after : ModuleCode} {func : Nat} {kind : BlockKind}
    {stub : NewStub} {dispatch : DispatchTables}
    (h : after.content = (before.content.withStub func kind stub).withDispatch dispatch) :
    after.blocks = before.blocks ++ [stub.block] ∧
      after.lazyExports = (before.withStub func kind stub).lazyExports := by
  have hblocks := congrArg ModuleCode.blocks h
  have hexports := congrArg ModuleCode.lazyExports h
  dsimp only [content, withStub, withCall, withBlock, withExports, withDispatch] at *
  exact ⟨hblocks, hexports⟩

/-- The first stub of a function comes with a note of the call to the stub compiler. -/
theorem ModuleCode.calls_of_withStub {before after : ModuleCode} {func : Nat} {kind : BlockKind}
    {stub : NewStub} {dispatch : DispatchTables}
    (h : after.content = (before.content.withStub func kind stub).withDispatch dispatch) :
    after.calls = before.calls ++ [stub.call] := by
  have hcalls := congrArg ModuleCode.calls h
  dsimp only [content, withStub, withCall, withBlock, withExports, withDispatch] at *
  exact hcalls

namespace ModuleCode.Undisturbed

variable {before after : ModuleCode} {funcs : List Nat}

/-- Code with the same content is undisturbed. -/
theorem of_content (h : after.content = before.content) : before.Undisturbed funcs after := by
  refine ⟨[], before.dispatch, nofun, ?_⟩
  rw [h, List.append_nil]
  rfl

/-- Code with other dispatch tables is undisturbed. -/
theorem of_dispatch {dispatch : DispatchTables}
    (h : after.content = before.content.withDispatch dispatch) : before.Undisturbed funcs after := by
  refine ⟨[], dispatch, nofun, ?_⟩
  rw [h, List.append_nil]
  rfl

/-- An attempt to make stubs that comes to nothing disturbs nothing. -/
theorem of_attempted {tier : Block} (h : Attempted tier funcs before after) :
    before.Undisturbed funcs after := by
  rcases h with h | ⟨call, hcall, h⟩
  · exact of_content h
  · refine ⟨[call], before.dispatch, fun other hother => ?_, h⟩
    rw [List.mem_singleton.mp hother, hcall.funcs]

end ModuleCode.Undisturbed

namespace InstallPhase

/-- The functions that the call asks for new stubs of when it goes on. -/
def requested (code : ModuleCode) : InstallPhase → List Nat
  | registered _ _ => upgradedFuncs code.tier1.kind code.lazyExports
  | _ => []

/-- What a step of an install can lead to. -/
inductive Leads (before after : ModuleCode) : InstallPhase → InstallPhase → Prop where
  | begin {compiler : QuietCompiler} {plan : PatchPlan} {compiled : CompiledBlock}
      (hbaseline : before.tier1.kind = .baselineTier) (hoptimized : compiled.kind = .optimizedTier)
      (habsent : before.tier2 = .absent) (hafter : after = before.withTier2 .building) :
      Leads before after idle (begun compiler plan compiled)
  | refuse (hpresent : before.tier2 ≠ .absent) (hafter : after = before) :
      Leads before after idle refused
  | reject (hafter : after = before) : Leads before after idle panicked
  | build {compiler : QuietCompiler} {plan : PatchPlan} {compiled : CompiledBlock} {tier2 : Block}
      (hkind : tier2.kind = compiled.kind) (hafter : after = before) :
      Leads before after (begun compiler plan compiled) (built compiler tier2)
  | buildFails {compiler : QuietCompiler} {plan : PatchPlan} {compiled : CompiledBlock}
      {failure : Failure} (hafter : after = before) :
      Leads before after (begun compiler plan compiled) (leaving failure)
  | register {compiler : QuietCompiler} {tier2 : Block}
      (hafter : after.content = before.content.withBlock tier2) :
      Leads before after (locked compiler tier2) (registered compiler tier2)
  | registerFails {compiler : QuietCompiler} {tier2 : Block} {failure : Failure}
      (hafter : after.content = before.content) :
      Leads before after (locked compiler tier2) (withdrawn failure)
  | nothingToUpgrade {compiler : QuietCompiler} {tier2 : Block}
      (hnone : ∀ lazyExport ∈ before.lazyExports, lazyExport.kind ≠ before.tier1.kind)
      (hafter : after = before) :
      Leads before after (registered compiler tier2) (upgraded tier2 none)
  | upgrade {compiler : QuietCompiler} {tier2 : Block} (batch : StubBatch)
      (hadds : before.AddsUpgrade compiler.toStubCompiler tier2 (some batch) after)
      (hafter : after.content = { before.content with
        calls := after.calls, blocks := before.blocks ++ [batch.block]
        lazyExports := after.lazyExports }) :
      Leads before after (registered compiler tier2) (upgraded tier2 (some before.blocks.length))
  | upgradeFails {compiler : QuietCompiler} {tier2 : Block} {failure : Failure}
      (hafter : before.Undisturbed (upgradedFuncs before.tier1.kind before.lazyExports) after) :
      Leads before after (registered compiler tier2) (stopped tier2 failure)
  | publish {tier2 : Block} {stubIndex : Option Nat}
      (hafter : after = before.withTier2 (.published tier2)) :
      Leads before after (upgraded tier2 stubIndex) (published tier2 stubIndex)
  | redirect {tier2 : Block} {stubIndex : Option Nat} (hafter : before.Undisturbed [] after) :
      Leads before after (published tier2 stubIndex) redirected
  | withdraw {tier2 : Block} {failure : Failure}
      (hafter : after.content = before.content.withoutLast) :
      Leads before after (stopped tier2 failure) (withdrawn failure)
  | giveWay {failure : Failure} (hafter : after = before.withTier2 .absent) :
      Leads before after (leaving failure) (failed failure)
  | panic {phase : InstallPhase} (hworks : phase.work?.isSome = true)
      (hafter : before.Undisturbed (phase.requested before) after) : Leads before after phase panicked
  | panicWithdrawing {tier2 : Block} {failure : Failure}
      (hafter : after.content = before.content.withoutLast) :
      Leads before after (stopped tier2 failure) panicked

/-- A compiler that does not ask for an install leaves the place of the tier alone in an upgrade. -/
theorem content_of_addsUpgrade {before after : ModuleCode} {compiler : QuietCompiler} {tier2 : Block}
    {batch : StubBatch}
    (h : before.AddsUpgrade compiler.toStubCompiler tier2 (some batch) after) :
    after.content = { before.content with
      calls := after.calls, blocks := before.blocks ++ [batch.block]
      lazyExports := after.lazyExports } := by
  obtain ⟨place, rfl | ⟨-, -, block, hasks⟩, hafter⟩ := h.content
  · exact hafter
  · rw [compiler.quiet block] at hasks
    contradiction

/-- The first step of an install begins it, or finds another one, or is violated. -/
theorem enter_ensures (compiler : QuietCompiler) (plan : PatchPlan) (compiled : CompiledBlock)
    (s : Running) :
    (enter compiler plan compiled).Ensures s (fun next t => Leads s.code t.code idle next)
      (fun _ t => Leads s.code t.code idle panicked) := by
  rw [enter, Op.ensures_bind, Op.ensures_attempt]
  refine (Running.beginInstall_ensures compiled.kind).mono (fun _ t ht => ?_) (fun fault t ht => ?_)
  · obtain ⟨hbaseline, hoptimized, habsent, rfl⟩ := ht
    exact (Op.ensures_pure _).mpr (.begin hbaseline hoptimized habsent rfl)
  · obtain ⟨rfl, hpresent⟩ := ht
    cases fault with
    | failure failure => exact (Op.ensures_pure _).mpr (.refuse (hpresent rfl) rfl)
    | violation violation => exact .reject rfl

/-- What an install does next by itself leads to what the list says. -/
theorem work?_ensures {phase : InstallPhase} {op : Op Running InstallPhase}
    (hwork : phase.work? = some op) (s : Running) :
    op.Ensures s (fun next t => Leads s.code t.code phase next)
      (fun _ t => Leads s.code t.code phase panicked) := by
  have hworks : phase.work?.isSome = true := by rw [hwork]; rfl
  cases phase with
  | begun compiler plan compiled =>
    obtain rfl := Option.some.inj hwork
    rw [Op.ensures_bind, Op.ensures_attempt]
    refine (Running.buildOptimized_ensures plan compiled).mono (fun tier2 t ht => ?_)
      (fun fault t ht => ?_)
    · exact (Op.ensures_pure _).mpr (.build ht.1 ht.2.2)
    · cases fault with
      | failure failure => exact (Op.ensures_pure _).mpr (.buildFails ht)
      | violation violation => exact .panic hworks (.of_content (by rw [ht]))
  | locked compiler tier2 =>
    obtain rfl := Option.some.inj hwork
    rw [Op.ensures_bind, Op.ensures_attempt]
    refine (Running.addBlock_content tier2).mono (fun index t ht => ?_) (fun fault t ht => ?_)
    · exact (Op.ensures_pure _).mpr (.register ht.2)
    · cases fault with
      | failure failure => exact (Op.ensures_pure _).mpr (.registerFails ht)
      | violation violation => exact .panic hworks (.of_content ht)
  | registered compiler tier2 =>
    obtain rfl := Option.some.inj hwork
    rw [Op.ensures_bind, Op.ensures_attempt]
    refine ((Running.upgradeStubs_attempts (compiler.quiet tier2)).and Running.upgradeStubs_adds).mono
      (fun stubIndex t ht => ?_) (fun fault t ht => ?_)
    · rw [Op.ensures_pure]
      obtain ⟨hnothing, made, rfl, hadds⟩ := ht
      cases made with
      | none =>
        obtain ⟨ht, hnone⟩ := hnothing rfl
        exact .nothingToUpgrade hnone ht
      | some batch => exact .upgrade batch hadds (content_of_addsUpgrade hadds)
    · cases fault with
      | failure failure => exact (Op.ensures_pure _).mpr (.upgradeFails (.of_attempted ht.1))
      | violation violation => exact .panic hworks (.of_attempted ht.1)
  | upgraded tier2 stubIndex =>
    obtain rfl := Option.some.inj hwork
    rw [Op.ensures_bind, Running.ensures_change, Op.ensures_pure]
    exact .publish rfl
  | published tier2 stubIndex =>
    obtain rfl := Option.some.inj hwork
    refine (Running.redirect_content tier2 stubIndex).bind (fun _ t ht => ?_) (fun _ t ht => ?_)
    · obtain ⟨dispatch, ht⟩ := ht
      exact (Op.ensures_pure _).mpr (.redirect (.of_dispatch ht))
    · obtain ⟨dispatch, ht⟩ := ht
      exact .panic hworks (.of_dispatch ht)
  | stopped tier2 failure =>
    obtain rfl := Option.some.inj hwork
    refine (Running.popBlock_content tier2).bind (fun _ t ht => ?_) (fun _ t ht => ?_)
    · exact (Op.ensures_pure _).mpr (.withdraw ht)
    · exact .panicWithdrawing ht
  | leaving failure =>
    obtain rfl := Option.some.inj hwork
    rw [Op.ensures_bind, Running.ensures_change, Op.ensures_pure]
    exact .giveWay rfl
  | _ => contradiction

end InstallPhase

namespace EntryPhase

/-- What a step of a call for an interpreter entry can lead to, with the stub compiler that it may call. -/
inductive Leads (compiler : Option QuietCompiler) (before after : ModuleCode) :
    EntryPhase → EntryPhase → Prop where
  | eager {func index : Nat} {entry : FuncExport} {range : CodeRange}
      (hexport : before.exportOf func = .ok entry) (heager : entry.eagerEntry = some index)
      (hrange : (before.provider func).rangeAt index = .ok range) (hafter : after = before) :
      Leads compiler before after idle
        (returned func (.ok (entry, (before.provider func).addressOf range.start)))
  | read {func : Nat} {entry : FuncExport} (hexport : before.exportOf func = .ok entry)
      (hlazy : entry.eagerEntry = none) (hafter : after = before) :
      Leads compiler before after idle (exported func entry)
  | hint {func : Nat} {entry : FuncExport} (hafter : after = before) :
      Leads compiler before after (exported func entry) (hinted func entry)
  | noHint {func : Nat} {entry : FuncExport} (hafter : after = before) :
      Leads compiler before after (exported func entry) (waiting func entry)
  | lookFinds {func address : Nat} {entry : FuncExport}
      (hfound : before.lazyEntry func = .ok (some address)) (hafter : after = before) :
      Leads compiler before after (hinted func entry) (returned func (.ok (entry, address)))
  | lookMisses {func : Nat} {entry : FuncExport} (hafter : after = before) :
      Leads compiler before after (hinted func entry) (waiting func entry)
  | find {func address : Nat} {entry : FuncExport}
      (hfound : before.lazyEntry func = .ok (some address)) (hafter : after = before) :
      Leads compiler before after (locked func entry) (leaving func (.ok (entry, address)))
  | miss {func : Nat} {entry : FuncExport} (hafter : after = before) :
      Leads compiler before after (locked func entry) (missing func)
  | make {func : Nat} {entry : FuncExport} (hexport : before.exportOf func = .ok entry)
      (stub : NewStub) (dispatch : DispatchTables)
      (hstub : stub.For before func (before.provider func))
      (hafter : after.content =
        (before.content.withStub func (before.provider func).kind stub).withDispatch dispatch)
      (hmade : ∃ quiet ∈ compiler, ∃ batch, before.AddsStub quiet.toStubCompiler func batch after) :
      Leads compiler before after (missing func)
        (leaving func (.ok (entry, stub.block.addressOf stub.range.start)))
  | fail {func : Nat} {failure : Failure}
      (hafter : Attempted (before.provider func) [func] before after) :
      Leads compiler before after (missing func) (leaving func (.error failure))
  | panic {phase : EntryPhase} (hafter : after = before) : Leads compiler before after phase panicked
  | panicAttempting {func : Nat} (hafter : Attempted (before.provider func) [func] before after) :
      Leads compiler before after (missing func) panicked
  | panicMade {func : Nat} (stub : NewStub) (dispatch : DispatchTables)
      (hstub : stub.For before func (before.provider func))
      (hafter : after.content =
        (before.content.withStub func (before.provider func).kind stub).withDispatch dispatch) :
      Leads compiler before after (missing func) panicked

/-- The export of a function is the one in the block that provides it. -/
theorem exportOf_eq_ok {code : ModuleCode} {func index : Nat} {entry : FuncExport}
    (h : (code.provider func).exportOf func = .ok (index, entry)) :
    code.exportOf func = .ok entry := by
  rw [ModuleCode.exportOf, h]
  rfl

/-- The first step of a call answers an eager entry, or goes on with the export. -/
theorem enter_ensures (func : Nat) (s : Running) :
    (enter func).Ensures s (fun next t => Leads none s.code t.code idle next)
      (fun _ t => Leads none s.code t.code idle panicked) := by
  rw [enter, Op.ensures_bind, Running.ensures_current, Op.ensures_bind, Op.ensures_ofChecked]
  split
  case h_2 => exact .panic rfl
  rename_i found hexport
  obtain ⟨exportIndex, entry⟩ := found
  dsimp only
  split
  · rename_i index heager
    rw [Op.ensures_bind, Op.ensures_ofChecked]
    split
    · rename_i range hrange
      exact (Op.ensures_pure _).mpr (.eager (exportOf_eq_ok hexport) heager hrange rfl)
    · exact .panic rfl
  · rename_i hlazy
    exact (Op.ensures_pure _).mpr (.read (exportOf_eq_ok hexport) hlazy rfl)

/-- A look for a stub finds it, or leads to waiting for the lock. -/
theorem look_ensures (func : Nat) (entry : FuncExport) (s : Running) :
    (look func entry).Ensures s (fun next t => Leads none s.code t.code (hinted func entry) next)
      (fun _ t => Leads none s.code t.code (hinted func entry) panicked) := by
  rw [look, Op.ensures_bind, Running.ensures_current, Op.ensures_bind, Op.ensures_ofChecked]
  split
  case h_2 => exact .panic rfl
  rename_i found hfound
  cases found with
  | some address => exact (Op.ensures_pure _).mpr (.lookFinds hfound rfl)
  | none => exact (Op.ensures_pure _).mpr (.lookMisses rfl)

/-- What a call does next by itself leads to what the list says. -/
theorem work?_ensures {compiler : QuietCompiler} {phase : EntryPhase} {op : Op Running EntryPhase}
    (hwork : phase.work? compiler = some op) (s : Running) :
    op.Ensures s (fun next t => Leads (some compiler) s.code t.code phase next)
      (fun _ t => Leads (some compiler) s.code t.code phase panicked) := by
  cases phase with
  | exported func entry =>
    obtain rfl := Option.some.inj hwork
    rw [Op.ensures_bind, Running.ensures_current, Op.ensures_bind, Op.ensures_ofChecked]
    split
    case h_2 => exact .panic rfl
    rename_i jit _
    rw [Op.ensures_pure]
    split
    · exact .hint rfl
    · exact .noHint rfl
  | locked func entry =>
    obtain rfl := Option.some.inj hwork
    rw [Op.ensures_bind, Running.ensures_current, Op.ensures_bind, Op.ensures_ofChecked]
    split
    case h_2 => exact .panic rfl
    rename_i found hfound
    cases found with
    | some address => exact (Op.ensures_pure _).mpr (.find hfound rfl)
    | none => exact (Op.ensures_pure _).mpr (.miss rfl)
  | missing func =>
    obtain rfl := Option.some.inj hwork
    rw [Op.ensures_bind, Running.ensures_current, Op.ensures_bind, Op.ensures_ofChecked]
    split
    case h_2 => exact .panic rfl
    rename_i found hexport
    obtain ⟨exportIndex, entry⟩ := found
    obtain rfl := Block.func_of_exportOf hexport
    dsimp only
    rw [Op.ensures_bind, Op.ensures_attempt, Op.ensures_during]
    refine ((Running.createStub_content (compiler.quiet _) exportIndex entry).and
      (Running.createStub_adds rfl)).mono (fun address t ht => ?_) (fun fault t ht => ?_)
    · obtain ⟨⟨stub, hstub, rfl, dispatch, ht⟩, batch, hadds⟩ := ht
      exact (Op.ensures_pure _).mpr
        (.make (exportOf_eq_ok hexport) stub dispatch hstub ht ⟨compiler, rfl, batch, hadds⟩)
    · replace ht := ht.1
      cases fault with
      | failure failure =>
        rcases ht with ht | ⟨hviolation, -⟩
        · exact (Op.ensures_pure _).mpr (.fail ht)
        · contradiction
      | violation violation =>
        rcases ht with ht | ⟨-, stub, hstub, dispatch, ht⟩
        · exact .panicAttempting ht
        · exact .panicMade stub dispatch hstub ht
  | _ => contradiction

end EntryPhase

namespace Scene

variable {Installer Caller : Type} [DecidableEq Installer] [DecidableEq Caller]
  {s : Scene Installer Caller}

omit [DecidableEq Caller] in
/-- An operation of an install moves the install to what the list says. -/
theorem afterInstall_eq {i : Installer} {op : Op Running InstallPhase} {phase : InstallPhase}
    (h : op.Ensures s.running (fun next t => phase.Leads s.running.code t.code next)
      (fun _ t => phase.Leads s.running.code t.code .panicked)) :
    ∃ next running, s.afterInstall i (op s.running) = s.moveInstall i next running ∧
      phase.Leads s.running.code running.code next := by
  cases hop : op s.running with
  | ok next running => exact ⟨next, running, rfl, h.of_ok hop⟩
  | error fault running => exact ⟨.panicked, running, rfl, h.of_error hop⟩

omit [DecidableEq Installer] in
/-- An operation of a call for an entry moves the call to what the list says. -/
theorem afterEntry_eq {c : Caller} {op : Op Running EntryPhase} {phase : EntryPhase}
    {compiler : Option QuietCompiler}
    (h : op.Ensures s.running (fun next t => phase.Leads compiler s.running.code t.code next)
      (fun _ t => phase.Leads compiler s.running.code t.code .panicked)) :
    ∃ next running, s.afterEntry c (op s.running) = s.moveEntry c next running ∧
      phase.Leads compiler s.running.code running.code next := by
  cases hop : op s.running with
  | ok next running => exact ⟨next, running, rfl, h.of_ok hop⟩
  | error fault running => exact ⟨.panicked, running, rfl, h.of_error hop⟩

/-- What the steps of a scene come down to. -/
inductive Effect (s : Scene Installer Caller) :
    CallEvent Installer Caller → Scene Installer Caller → Prop where
  | install (i : Installer) (next : InstallPhase) (running : Running)
      (hleads : (s.installs i).Leads s.running.code running.code next) :
      Effect s (.install i (s.installs i).compiler?) (s.moveInstall i next running)
  | lockInstall (i : Installer) (compiler : QuietCompiler) (tier2 : Block)
      (hbuilt : s.installs i = .built compiler tier2) (hfree : s.lock = .free) :
      Effect s (.lock i)
        { s with
          lock := .installer i
          installs := Function.update s.installs i (.locked compiler tier2) }
  | poisonInstall (i : Installer) (compiler : QuietCompiler) (tier2 : Block)
      (hbuilt : s.installs i = .built compiler tier2) :
      Effect s (.install i none) { s with installs := Function.update s.installs i .panicked }
  | unlockInstall (i : Installer) (next : InstallPhase)
      (hnext : (s.installs i).unlocked? = some next) :
      Effect s (.install i none)
        { s with lock := .free, installs := Function.update s.installs i next }
  | entry (c : Caller) (compiler : Option QuietCompiler) (next : EntryPhase) (running : Running)
      (hshared : ∀ func found, s.entries c = .hinted func found → s.lock = .free)
      (hleads : (s.entries c).Leads compiler s.running.code running.code next) :
      Effect s (.entry c compiler ((s.entries c).stubbed? s.running.code running.code))
        (s.moveEntry c next running)
  | lockEntry (c : Caller) (func : Nat) (found : FuncExport)
      (hwaiting : s.entries c = .waiting func found) (hfree : s.lock = .free) :
      Effect s (.entry c none none)
        { s with
          lock := .caller c
          entries := Function.update s.entries c (.locked func found) }
  | poisonEntry (c : Caller) :
      Effect s (.entry c none none) { s with entries := Function.update s.entries c .panicked }
  | unlockEntry (c : Caller) (func : Nat) (result : Except Failure (FuncExport × Nat))
      (hleaving : s.entries c = .leaving func result) :
      Effect s (.entry c none none)
        { s with
          lock := .free
          entries := Function.update s.entries c (.returned func result) }
  | outside (engine : Engine) (dispatch : DispatchTables) :
      Effect s .outside
        { s with running := { engine, code := s.running.code.withDispatch dispatch } }

/-- Every step has one of the effects. -/
theorem Step.effect {event : CallEvent Installer Caller} {t : Scene Installer Caller}
    (hstep : Step s event t) : Effect s event t := by
  cases hstep with
  | beginInstall i compiler plan compiled hidle =>
    obtain ⟨next, running, heq, hleads⟩ := afterInstall_eq (s := s) (i := i)
      (InstallPhase.enter_ensures compiler plan compiled s.running)
    rw [← hidle] at hleads
    have heffect := Effect.install i next running hleads
    rw [heq]
    rwa [hidle] at heffect
  | install i op hwork =>
    obtain ⟨next, running, heq, hleads⟩ := afterInstall_eq (s := s) (i := i)
      (InstallPhase.work?_ensures hwork s.running)
    rw [heq]
    exact .install i next running hleads
  | lockInstall i compiler tier2 hbuilt hfree => exact .lockInstall i compiler tier2 hbuilt hfree
  | poisonInstall i compiler tier2 hbuilt hpoisoned => exact .poisonInstall i compiler tier2 hbuilt
  | unlockInstall i next hnext => exact .unlockInstall i next hnext
  | beginEntry c func hidle =>
    obtain ⟨next, running, heq, hleads⟩ := afterEntry_eq (s := s) (c := c)
      (EntryPhase.enter_ensures func s.running)
    rw [← hidle] at hleads
    have heffect := Effect.entry c none next running (by rw [hidle]; nofun) hleads
    rw [heq]
    rwa [hidle] at heffect
  | entry c compiler op hwork =>
    obtain ⟨next, running, heq, hleads⟩ := afterEntry_eq (s := s) (c := c)
      (EntryPhase.work?_ensures hwork s.running)
    rw [heq]
    refine .entry c _ next running (fun func found hhinted => ?_) hleads
    rw [hhinted] at hwork
    contradiction
  | look c func found hhinted hfree =>
    obtain ⟨next, running, heq, hleads⟩ := afterEntry_eq (s := s) (c := c)
      (EntryPhase.look_ensures func found s.running)
    rw [← hhinted] at hleads
    have heffect := Effect.entry c none next running (fun _ _ _ => hfree) hleads
    rw [heq]
    rwa [hhinted] at heffect
  | lockEntry c func found hwaiting hfree => exact .lockEntry c func found hwaiting hfree
  | poisonEntry c func found hwaiting hpoisoned => exact .poisonEntry c
  | unlockEntry c func result hleaving => exact .unlockEntry c func result hleaving
  | outside engine dispatch => exact .outside engine dispatch

end Scene

end CompiledCode

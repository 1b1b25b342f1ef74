import CompiledCode.Proofs.ModuleCode.CallUpgrade
import CompiledCode.Proofs.ModuleCode.Create

/-!
# One optimized tier for good

Calls are made on module code that has just been created, any number of them and in any order.
One install succeeds at most, its tier stays, and whenever the lock is free the entry stubs of
defined functions are such that a compiler was asked to make for that tier.
-/

namespace CompiledCode

namespace InstallPhase

/-- Whether the call was refused. -/
def isRefused : InstallPhase → Bool
  | refused => true
  | _ => false

/-- Whether the call has installed its tier. -/
def isSucceeded : InstallPhase → Bool
  | succeeded => true
  | _ => false

/-- A call that was refused is at its end. -/
theorem eq_refused {phase : InstallPhase} (h : phase.isRefused = true) : phase = refused := by
  cases phase <;> trivial

/-- A call that has installed its tier is at its end. -/
theorem eq_succeeded {phase : InstallPhase} (h : phase.isSucceeded = true) : phase = succeeded := by
  cases phase <;> trivial

end InstallPhase

namespace Scene

variable {Installer Caller : Type} [DecidableEq Installer] [DecidableEq Caller]

/-- Whether a step has its stub compiler make a batch of stubs, and adds the block that holds them. -/
structure Makes (batch : StubBatch) (s : Scene Installer Caller) (event : CallEvent Installer Caller)
    (t : Scene Installer Caller) : Prop where
  step : Step s event t
  gains : ModuleCode.GainsBatch event.compiler? batch s.running.code t.running.code

/-- Whether a batch of stubs was made in one of the steps of a run. -/
def MadeIn (batch : StubBatch) (s : Scene Installer Caller)
    (trace : List (CallEvent Installer Caller)) (t : Scene Installer Caller) : Prop :=
  ∃ earlier event later before after, trace = later ++ event :: earlier ∧ Run s earlier before ∧
    Makes batch before event after ∧ Run after later t

variable {s t u : Scene Installer Caller} {trace later : List (CallEvent Installer Caller)}
  {batch : StubBatch}

/-- The last step of a run may have made a batch. -/
theorem madeIn_of_makes {event : CallEvent Installer Caller} (hrun : Run s trace t)
    (h : Makes batch t event u) : MadeIn batch s (event :: trace) u :=
  ⟨trace, event, [], t, u, rfl, hrun, h, .start⟩

/-- A batch that was made stays one that was made. -/
theorem MadeIn.step {event : CallEvent Installer Caller} (h : MadeIn batch s trace t)
    (hstep : Step t event u) : MadeIn batch s (event :: trace) u := by
  obtain ⟨earlier, other, later, before, after, rfl, hearlier, hmakes, hlater⟩ := h
  exact ⟨earlier, other, event :: later, before, after, rfl, hearlier, hmakes, hlater.step hstep⟩

omit [DecidableEq Installer] [DecidableEq Caller] in
/-- Before any call nobody has the lock. -/
theorem guarded_start (running : Running) :
    Guarded ({ running } : Scene Installer Caller) where
  install := nofun
  entry := nofun

omit [DecidableEq Installer] [DecidableEq Caller] in
/-- Before any call no install is under way or done. -/
theorem exclusive_start {running : Running} (habsent : running.code.tier2 = .absent) :
    Exclusive ({ running } : Scene Installer Caller) where
  building := nofun
  published := nofun
  once := nofun
  pursued h := by
    rcases h with htier2 | ⟨i, hi⟩
    · exact absurd habsent htier2
    · contradiction
  kind := nofun
  publishedKind tier2 h := by
    change running.code.tier2 = _ at h
    rw [habsent] at h
    contradiction

omit [DecidableEq Installer] [DecidableEq Caller] in
/-- Before any call there are no entry stubs. -/
theorem orderly_start {running : Running} (habsent : running.code.tier2 = .absent)
    (hexports : running.code.lazyExports = []) (made : StubBatch → Prop) :
    Orderly made ({ running } : Scene Installer Caller) where
  filed := ModuleCode.filed_of_nil hexports
  last := nofun
  upgraded := nofun
  published tier2 h := by
    change running.code.tier2.block? = _ at h
    rw [habsent] at h
    contradiction
  firstTier _ _ lazyExport hmem := by
    change lazyExport ∈ running.code.lazyExports at hmem
    rw [hexports] at hmem
    contradiction

/-- Runs keep the lock with those who have it. -/
theorem Guarded.run (h : Guarded s) (hrun : Run s trace t) : Guarded t := by
  induction hrun with
  | start => exact h
  | step _ hstep ih => exact ih.step hstep

/-- Runs keep installs apart. -/
theorem Exclusive.run (h : Exclusive s) (hrun : Run s trace t) : Exclusive t := by
  induction hrun with
  | start => exact h
  | step _ hstep ih => exact ih.step hstep

/-- Runs keep the stubs in order, in batches made in the run, as long as nobody panics while he has the
lock. -/
theorem Orderly.run (h : ∀ made, Orderly made s) (hguarded : Guarded s) (hexclusive : Exclusive s)
    (hrun : Run s trace t) (hlive : t.lock ≠ .poisoned) :
    Orderly (fun batch => MadeIn batch s trace t) t := by
  induction hrun with
  | start => exact h _
  | step hrun hstep ih =>
    have hstill := fun hpoisoned => hlive (lock_eq_poisoned (hguarded.run hrun) hstep hpoisoned)
    refine ((ih hstill).mono fun _ hmade => hmade.step hstep).step (hguarded.run hrun)
      (hexclusive.run hrun) hstep (fun _ hgains => ?_) hlive
    exact madeIn_of_makes hrun ⟨hstep, hgains⟩

/-- A step leaves a published tier in its place. -/
theorem Exclusive.block?_step (h : Exclusive s) {event : CallEvent Installer Caller}
    (hstep : Step s event t) {tier2 : Block} (hpublished : s.running.code.tier2.block? = some tier2) :
    t.running.code.tier2.block? = some tier2 := by
  cases hstep.effect with
  | install i next running hleads =>
    have hnot (howns : (s.installs i).owns = true) := h.unpublished howns
    generalize s.installs i = phase at *
    change running.code.tier2.block? = _
    cases hleads.placeChange with
    | taken habsent =>
      rw [habsent] at hpublished
      contradiction
    | filled | left =>
      rw [hnot rfl] at hpublished
      contradiction
    | none hafter => rw [hafter, hpublished]
  | entry c compiler next running hshared hleads =>
    change running.code.tier2.block? = _
    rw [hleads.tier2_eq, hpublished]
  | lockInstall | poisonInstall | unlockInstall => exact hpublished
  | lockEntry | poisonEntry | unlockEntry | outside => exact hpublished

/-- A published tier stays in its place. -/
theorem Exclusive.block?_run (h : Exclusive s) (hrun : Run s trace t) {tier2 : Block}
    (hpublished : s.running.code.tier2.block? = some tier2) :
    t.running.code.tier2.block? = some tier2 := by
  induction hrun with
  | start => exact hpublished
  | step hrun hstep ih => exact (h.run hrun).block?_step hstep ih

/-- The first step of an install that is refused changes nothing. -/
theorem enter_refused (compiler : QuietCompiler) (plan : PatchPlan) (compiled : CompiledBlock)
    (s : Running) :
    (InstallPhase.enter compiler plan compiled).Ensures s (fun next t => next = .refused → t = s)
      (fun _ _ => True) := by
  rw [InstallPhase.enter, Op.ensures_bind, Op.ensures_attempt]
  refine (Running.beginInstall_ensures compiled.kind).mono (fun _ t _ => ?_) (fun fault t ht => ?_)
  · exact (Op.ensures_pure _).mpr (by rintro ⟨⟩)
  · cases fault with
    | failure failure => exact (Op.ensures_pure _).mpr fun _ => ht.1
    | violation violation => trivial

omit [DecidableEq Caller] in
/-- An install that is refused now and has not been before is the one that has moved on. -/
theorem eq_of_refused {i j : Installer} {next : InstallPhase}
    (hinstalls : t.installs = Function.update s.installs j next) (hbefore : s.installs i ≠ .refused)
    (hafter : t.installs i = .refused) : i = j ∧ next = .refused := by
  rw [hinstalls] at hafter
  rcases update_self_or_of_ne s.installs j next i with ⟨hij, hnext⟩ | hsame
  · exact ⟨hij, hnext.symm.trans hafter⟩
  · exact absurd (hsame.symm.trans hafter) hbefore

/-- A step that refuses an install changes nothing else. -/
theorem Step.eq_of_refused {event : CallEvent Installer Caller} (hstep : Step s event t)
    {i : Installer} (hbefore : s.installs i ≠ .refused) (hafter : t.installs i = .refused) :
    t = { s with installs := Function.update s.installs i .refused } := by
  cases hstep with
  | beginInstall j compiler plan compiled hidle =>
    have hrefused := enter_refused compiler plan compiled s.running
    cases hop : InstallPhase.enter compiler plan compiled s.running with
    | ok next running =>
      rw [hop] at hafter
      obtain ⟨rfl, rfl⟩ := Scene.eq_of_refused (t := s.moveInstall j next running) rfl hbefore hafter
      obtain rfl := hrefused.of_ok hop rfl
      rfl
    | error fault running =>
      rw [hop] at hafter
      obtain ⟨-, hnext⟩ := Scene.eq_of_refused (t := s.moveInstall j .panicked running) rfl hbefore
        hafter
      contradiction
  | install j op hwork =>
    obtain ⟨next, running, heq, hleads⟩ := afterInstall_eq (s := s) (i := j)
      (InstallPhase.work?_ensures hwork s.running)
    rw [heq] at hafter
    obtain ⟨-, rfl⟩ := Scene.eq_of_refused (t := s.moveInstall j next running) rfl hbefore hafter
    generalize s.installs j = phase at hwork hleads
    cases hleads
    contradiction
  | lockInstall j compiler tier2 hbuilt hfree =>
    obtain ⟨-, hnext⟩ := Scene.eq_of_refused rfl hbefore hafter
    contradiction
  | poisonInstall j compiler tier2 hbuilt hpoisoned =>
    obtain ⟨-, hnext⟩ := Scene.eq_of_refused rfl hbefore hafter
    contradiction
  | unlockInstall j next hnext =>
    obtain ⟨-, rfl⟩ := Scene.eq_of_refused rfl hbefore hafter
    generalize s.installs j = phase at hnext
    cases phase <;> cases hnext
  | beginEntry c func hidle =>
    obtain ⟨next, running, heq, -⟩ := afterEntry_eq (s := s) (c := c)
      (EntryPhase.enter_ensures func s.running)
    rw [heq] at hafter
    exact absurd hafter hbefore
  | entry c compiler op hwork =>
    obtain ⟨next, running, heq, -⟩ := afterEntry_eq (s := s) (c := c)
      (EntryPhase.work?_ensures hwork s.running)
    rw [heq] at hafter
    exact absurd hafter hbefore
  | look c func found hhinted hfree =>
    obtain ⟨next, running, heq, -⟩ := afterEntry_eq (s := s) (c := c)
      (EntryPhase.look_ensures func found s.running)
    rw [heq] at hafter
    exact absurd hafter hbefore
  | lockEntry | poisonEntry | unlockEntry | outside => exact absurd hafter hbefore

/-- Of all calls on new module code at most one install succeeds, and one does if any is made and
none fails or panics. A published tier stays, and an install that is refused changes nothing. With the
lock free, the export of a defined function refers to a stub in a batch that one of the steps had its
compiler make for the published tier, of requests with the address of the function in that tier. -/
theorem installs_publish_once {settings : Settings} {symbols : SymbolTable} {parts : ModuleParts}
    {before engine : Engine} {code : ModuleCode}
    (hcreate : ModuleCode.create settings symbols parts before = .ok code engine)
    (hrun : Run { running := { engine, code } } trace s) :
    (∀ i j, s.installs i = .succeeded → s.installs j = .succeeded → i = j) ∧
    ((∀ i, s.installs i = .idle ∨ s.installs i = .refused ∨ s.installs i = .succeeded) →
      (∃ i, s.installs i ≠ .idle) → ∃! i, s.installs i = .succeeded) ∧
    (∀ tier2 later t, s.running.code.tier2.block? = some tier2 → Run s later t →
      t.running.code.tier2.block? = some tier2) ∧
    (∀ event t i, Step s event t → s.installs i ≠ .refused → t.installs i = .refused →
      t = { s with installs := Function.update s.installs i .refused }) ∧
    (s.lock = .free → ∀ tier2, s.running.code.tier2.block? = some tier2 →
      tier2.kind = .optimizedTier ∧ s.running.code.tier1.kind = .baselineTier ∧
      ∀ lazyExport ∈ s.running.code.lazyExports,
        s.running.code.imports.length ≤ lazyExport.func →
          lazyExport.kind = tier2.kind ∧
          ∃ batch, MadeIn batch { running := { engine, code } } trace s ∧ batch.tier = tier2 ∧
            s.running.code.blocks[lazyExport.blockIndex]? = some batch.block ∧
            entryIndex? .interpEntry lazyExport.func batch.block.tables.ranges =
              some lazyExport.rangeIndex ∧
            ∃ request ∈ batch.requests, request.func = lazyExport.func ∧
              tier2.funcEntry? lazyExport.func = some request.callee) := by
  obtain ⟨habsent, hexports⟩ := (ModuleCode.create_ensures settings symbols parts before).of_ok hcreate
  have hguarded : Guarded ({ running := { engine, code } } : Scene Installer Caller) :=
    guarded_start { engine, code }
  have hstart : Exclusive ({ running := { engine, code } } : Scene Installer Caller) :=
    exclusive_start habsent
  have hexclusive := hstart.run hrun
  have hdone : ∀ {i}, s.installs i = .succeeded → (s.installs i).finishes = true := by
    intro i hi
    rw [hi]
    rfl
  refine ⟨fun i j hi hj => hexclusive.once i j (.inr (hdone hi)) (.inr (hdone hj)), ?_, ?_, ?_, ?_⟩
  · intro hall ⟨k, hk⟩
    have hpursued : ∃ i, (s.installs i).pursued = true := by
      rcases hall k with hidle | hrefused | hsucceeded
      · exact absurd hidle hk
      · exact hexclusive.pursued (.inr ⟨k, hrefused⟩)
      · exact ⟨k, by rw [hsucceeded]; rfl⟩
    obtain ⟨i, hi⟩ := hpursued
    rcases hall i with hidle | hrefused | hsucceeded
    · rw [hidle] at hi
      contradiction
    · rw [hrefused] at hi
      contradiction
    · exact ⟨i, hsucceeded, fun j hj => hexclusive.once j i (.inr (hdone hj)) (.inr (hdone hsucceeded))⟩
  · exact fun tier2 later t hpublished hlater => hexclusive.block?_run hlater hpublished
  · exact fun event t i hstep hbefore hafter => hstep.eq_of_refused hbefore hafter
  · intro hfree tier2 hpublished
    have hlive : s.lock ≠ .poisoned := by
      rw [hfree]
      nofun
    have horderly := Orderly.run (orderly_start habsent hexports) hguarded hstart hrun hlive
    obtain ⟨hoptimized, hbaseline⟩ :=
      hexclusive.publishedKind tier2 (OptimizedTier.eq_published_of_block? hpublished)
    refine ⟨hoptimized, hbaseline, fun lazyExport hmem hdefined => ?_⟩
    obtain ⟨batch, hmade, hstubbed⟩ := horderly.published tier2 hpublished lazyExport hmem hdefined
    have hrequests := hstubbed.requests
    rw [StubBatch.Requests, hstubbed.tier] at hrequests
    exact ⟨hstubbed.kind, batch, hmade, hstubbed.tier, hstubbed.block, hstubbed.enters, hrequests⟩

/-- A stub compiler that never succeeds. -/
def failing : QuietCompiler where
  compile _ _ := .error { cause := .optimizedAlreadyInstalled }
  quiet _ := rfl

/-- A stub compiler that makes a stub of one byte for the first function. -/
def oneByteStubs : QuietCompiler where
  compile _ _ := .ok
    { code := [0]
      tables :=
        { ranges := [{ kind := .interpEntry, func := some 0, start := 0, stop := 1, tierEntry := 0 }] } }
  quiet _ := rfl

/-- An install that can go on by itself does so. -/
theorem Run.install (run : Run s trace t) (i : Installer) (h : (t.installs i).work?.isSome = true) :
    Run s (.install i (t.installs i).compiler? :: trace)
      (t.afterInstall i ((t.installs i).work?.get h t.running)) :=
  run.step (.install i _ (Option.some_get h).symm)

/-- An install that can give the lock back does so. -/
theorem Run.unlockInstall (run : Run s trace t) (i : Installer)
    (h : (t.installs i).unlocked?.isSome = true) :
    Run s (.install i none :: trace)
      { t with
        lock := .free
        installs := Function.update t.installs i ((t.installs i).unlocked?.get h) } :=
  run.step (.unlockInstall i _ (Option.some_get h).symm)

/-- A stub is made for the first tier, and then one of two installs is refused while the other one goes on
to its end. -/
theorem exists_run_of_two : ∃ trace, ∃ s : Scene Bool Unit, ∃ tier2,
    Run { running := ⟨.oneFunction, .oneFunction⟩ } trace s ∧ s.lock = .free ∧
      s.installs false = .refused ∧ s.installs true = .succeeded ∧
      s.running.code.tier2.block? = some tier2 ∧ s.running.code.imports.length = 0 ∧
      s.running.code.lazyExports =
        [{ func := 0, blockIndex := 4, rangeIndex := 0, kind := .optimizedTier }] := by
  have run := Run.start (s := ({ running := ⟨.oneFunction, .oneFunction⟩ } : Scene Bool Unit))
  have run := run.step (.beginEntry () 0 rfl)
  have run := run.step (.entry () oneByteStubs _ rfl)
  have run := run.step (.lockEntry () 0 _ rfl rfl)
  have run := run.step (.entry () oneByteStubs _ rfl)
  have run := run.step (.entry () oneByteStubs _ rfl)
  have run := run.step (.unlockEntry () 0 _ rfl)
  have run := run.step (.beginInstall true oneByteStubs {} .oneFunctionOptimized rfl)
  have run := run.step (.beginInstall false oneByteStubs {} .oneFunctionOptimized rfl)
  have run := run.step (.install true _ rfl)
  have run := run.step (.lockInstall true _ _ rfl rfl)
  -- The tier is registered, the stub is made anew, the tier is published, and calls are redirected.
  have run := run.install true (by decide +kernel)
  have run := run.install true (by decide +kernel)
  have run := run.install true (by decide +kernel)
  have run := run.install true (by decide +kernel)
  have run := run.unlockInstall true (by decide +kernel)
  refine ⟨_, _, _, run, rfl, InstallPhase.eq_refused ?_, InstallPhase.eq_succeeded ?_,
    (Option.some_get ?_).symm, ?_, ?_⟩ <;> decide +kernel

/-- Of two installs one succeeds, and the stub that there was for the first tier is made anew in it. -/
theorem installs_publish_once_of_two : ∃ trace, ∃ s : Scene Bool Unit, ∃ tier2 batch,
    Run { running := ⟨.oneFunction, .oneFunction⟩ } trace s ∧ s.installs false = .refused ∧
      (∃! i, s.installs i = .succeeded) ∧ s.running.code.tier2.block? = some tier2 ∧
      s.running.code.lazyExports =
        [{ func := 0, blockIndex := 4, rangeIndex := 0, kind := .optimizedTier }] ∧
      MadeIn batch { running := ⟨.oneFunction, .oneFunction⟩ } trace s ∧ batch.tier = tier2 ∧
      s.running.code.blocks[4]? = some batch.block ∧
      ∃ request ∈ batch.requests, request.func = 0 ∧ tier2.funcEntry? 0 = some request.callee := by
  obtain ⟨trace, s, tier2, run, hfree, hrefused, hsucceeded, hpublished, himports, hexports⟩ :=
    exists_run_of_two
  obtain ⟨-, hexactly, -, -, hstubs⟩ := installs_publish_once create_oneFunction run
  have hended : ∀ i, s.installs i = .idle ∨ s.installs i = .refused ∨ s.installs i = .succeeded
    | false => .inr (.inl hrefused)
    | true => .inr (.inr hsucceeded)
  have hbegun : s.installs true ≠ .idle := by
    rw [hsucceeded]
    nofun
  obtain ⟨-, -, hstubbed⟩ := hstubs hfree tier2 hpublished
  obtain ⟨-, batch, hmade, htier, hblock, -, hcalls⟩ :=
    hstubbed _ (hexports ▸ List.mem_cons_self) (Nat.le_of_eq himports)
  exact ⟨trace, s, tier2, batch, run, hrefused, hexactly hended ⟨true, hbegun⟩, hpublished, hexports,
    hmade, htier, hblock, hcalls⟩

end Scene

end CompiledCode

import CompiledCode.Proofs.ModuleCode.ExportStubs
import CompiledCode.Proofs.ModuleCode.InstallOnce
import CompiledCode.Proofs.Process.FunctionRanges

/-!
# Questions about tiers

Which tiers there are, which of them is the best and which of them a function runs in may be asked at any
time, also while calls are under way and after some of them have panicked. The answers agree with the
blocks that hold the tiers, as the first tier is of a kind for tiers from the start, and whatever gets
to be published is an optimized tier. But the shared stubs are of no kind for tiers. Since they are what
provides an import, there is no answer to whether an import runs in a tier.
-/

namespace CompiledCode

namespace ModuleCode

variable {code later : ModuleCode} {tier : Tier} {func : Nat}

/-- Whether the blocks of a module are of the kinds that their places are for. -/
structure KindsInPlace (code : ModuleCode) : Prop extends code.KindsApart where
  firstTier : code.tier1.kind.tier?.isSome = true

/-- New module code has blocks of the right kinds. -/
theorem CreatedFrom.kindsInPlace {settings : Settings} {symbols : SymbolTable} {parts : ModuleParts}
    (h : CreatedFrom settings symbols parts code) : code.KindsInPlace := by
  obtain ⟨-, -, ⟨_, _, htier1⟩⟩ := h.blocks
  refine ⟨h.kindsApart, ?_⟩
  rw [htier1]
  exact h.tierKind

/-- The kinds of blocks depend on the optimized tier alone once there is module code. -/
theorem KindsInPlace.of_sameBase (h : code.KindsInPlace) (hbase : code.SameBase later)
    (htier2 : ∀ block ∈ later.tier2.block?, block.kind = .optimizedTier) : later.KindsInPlace := by
  refine ⟨⟨?_, ?_, htier2⟩, ?_⟩
  · rw [hbase.sharedStubs]
    exact h.sharedStubs
  · rw [hbase.tier1]
    exact h.tier1
  · rw [hbase.tier1]
    exact h.firstTier

/-- Blocks are of the right kinds as long as they provide the same functions. -/
theorem KindsInPlace.congr (h : code.KindsInPlace) (hsame : code.SameProviders later) :
    later.KindsInPlace := by
  refine h.of_sameBase ⟨hsame.sharedStubs, hsame.tier1, hsame.imports⟩ ?_
  rw [hsame.tier2]
  exact h.tier2

/-- Blocks are of the right kinds whatever a call comes to. -/
theorem KindsInPlace.outcome (h : code.KindsInPlace) {call : ModuleCall}
    (houtcome : call.Outcome code later) : later.KindsInPlace := by
  cases houtcome with
  | notes hmarked => exact h.congr hmarked.sameProviders
  | stub hadds => exact h.congr hadds.sameProviders
  | tier habsent htier1 hkind hadds =>
    refine ⟨h.toKindsApart.tier hkind hadds, ?_⟩
    rw [show later.tier1 = code.tier1 from (congrArg ModuleCode.tier1 hadds.content :)]
    exact h.firstTier
  | offer hoffered hcontent => exact h.congr (sameProviders_of_dispatch hcontent)

/-- The first tier has a tier. -/
theorem KindsInPlace.exists_tier1_tier (h : code.KindsInPlace) : ∃ first, code.tier1.tier = .ok first := by
  obtain ⟨first, hfirst⟩ := Option.isSome_iff_exists.mp h.firstTier
  exact ⟨first, Block.tier_eq_ok_iff.mpr hfirst⟩

/-- A published tier is an optimized one. -/
theorem KindsInPlace.tier2_tier (h : code.KindsInPlace) {tier2 : Block}
    (htier2 : code.tier2.block? = some tier2) : tier2.tier = .ok .optimized := by
  rw [Block.tier, h.tier2 tier2 htier2]
  rfl

/-- A tier is available and there is a block of it, or it is neither available nor in any block. -/
theorem KindsInPlace.hasTier_cases (h : code.KindsInPlace) (tier : Tier) :
    (code.hasTier tier = .ok true ∧ ∃ block, code.tierBlock tier = .ok block ∧ block.tier = .ok tier) ∨
      code.hasTier tier = .ok false ∧ code.tierBlock tier = .error (.tierMissing tier) := by
  obtain ⟨first, hfirst⟩ := h.exists_tier1_tier
  unfold hasTier tierBlock
  rw [hfirst]
  by_cases hsame : first = tier
  · subst hsame
    exact .inl ⟨if_pos rfl, code.tier1, if_pos rfl, hfirst⟩
  · simp only [bind, Except.bind, if_neg hsame]
    cases htier2 : code.tier2.block? with
    | none => exact .inr ⟨rfl, rfl⟩
    | some tier2 =>
      have hsecond := h.tier2_tier htier2
      simp only [hsecond]
      by_cases hoptimized : Tier.optimized = tier
      · subst hoptimized
        exact .inl ⟨rfl, tier2, rfl, hsecond⟩
      · simp [hoptimized, pure, Except.pure, throw, throwThe, MonadExceptOf.throw]

/-- Some tier is the best one. -/
theorem KindsInPlace.exists_bestTier (h : code.KindsInPlace) :
    ∃ best, code.bestTier = .ok best ∧ code.hasTier best = .ok true ∧
      (best = .optimized ↔ code.hasOptimized = true ∨ code.tier1.tier = .ok .optimized) := by
  obtain ⟨first, hfirst⟩ := h.exists_tier1_tier
  unfold bestTier hasTier hasOptimized
  cases htier2 : code.tier2.block? with
  | none =>
    refine ⟨first, hfirst, ?_, ?_⟩
    · rw [hfirst]
      exact if_pos rfl
    · simp [hfirst]
  | some tier2 =>
    have hsecond := h.tier2_tier htier2
    refine ⟨.optimized, hsecond, ?_, by simp⟩
    rw [hfirst]
    simp only [bind, Except.bind, hsecond]
    split <;> rfl

/-- A function runs in the tier of the block that provides it. -/
theorem funcHasTier_of_tier {own : Tier} (hown : (code.provider func).tier = .ok own) (tier : Tier) :
    code.funcHasTier func tier = .ok (decide (own = tier)) := by
  unfold funcHasTier
  rw [hown]
  rfl

/-- A function that is not imported runs in some tier. -/
theorem KindsInPlace.exists_provider_tier (h : code.KindsInPlace)
    (hdefined : code.imports.length ≤ func) : ∃ own, (code.provider func).tier = .ok own := by
  unfold provider
  rw [if_neg (Nat.not_lt_of_le hdefined)]
  cases htier2 : code.tier2.block? with
  | none => exact h.exists_tier1_tier
  | some tier2 => exact ⟨.optimized, h.tier2_tier htier2⟩

/-- An import is in the shared stubs, which are in no tier. -/
theorem KindsInPlace.funcHasTier_import (h : code.KindsInPlace) (himport : func < code.imports.length)
    (tier : Tier) :
    code.provider func = code.sharedStubs ∧ code.funcHasTier func tier = .error (.noTier .sharedStubs) := by
  have hprovider : code.provider func = code.sharedStubs := if_pos himport
  refine ⟨hprovider, ?_⟩
  unfold funcHasTier Block.tier
  rw [hprovider, h.sharedStubs]
  rfl

end ModuleCode

namespace Process

variable {p : Process}

/-- The blocks of every module are of the right kinds whatever is done to its code. -/
theorem Reachable.kindsInPlace (h : Reachable p) : ∀ code ∈ p.codes, code.KindsInPlace := by
  have hlasting : Lasting ModuleCode.KindsInPlace :=
    lasting_of_outcome (fun hfrom => hfrom.kindsInPlace) (fun houtcome hkinds => hkinds.outcome houtcome)
      (fun _ hkinds => hkinds.congr ⟨rfl, rfl, rfl, rfl⟩) fun _ hkinds => hkinds.congr ⟨rfl, rfl, rfl, rfl⟩
  exact hlasting.holds h

end Process

namespace Scene

variable {Installer Caller : Type} [DecidableEq Installer] [DecidableEq Caller]
  {s t : Scene Installer Caller} {trace : List (CallEvent Installer Caller)}

omit [DecidableEq Installer] [DecidableEq Caller] in
/-- Whether the blocks of a module are of the right kinds, and those that are being installed, too. -/
structure KindsInPlace (s : Scene Installer Caller) : Prop where
  code : s.running.code.KindsInPlace
  installs : ∀ i kind, (s.installs i).kind? = some kind → kind = .optimizedTier

omit [DecidableEq Installer] [DecidableEq Caller] in
/-- What changes neither the tiers nor an install leaves everything of the right kind. -/
theorem KindsInPlace.congr (h : KindsInPlace s) (hbase : s.running.code.SameBase t.running.code)
    (htier2 : t.running.code.tier2 = s.running.code.tier2) (hinstalls : t.installs = s.installs) :
    KindsInPlace t := by
  refine ⟨h.code.of_sameBase hbase ?_, ?_⟩
  · rw [htier2]
    exact h.code.tier2
  · rw [hinstalls]
    exact h.installs

omit [DecidableEq Caller] in
/-- An install that moves on leaves everything of the right kind if it still installs an optimized tier
and the place of the tier holds no other one. -/
theorem KindsInPlace.replace (h : KindsInPlace s) {i : Installer} {next : InstallPhase} {place : OptimizedTier}
    (hbase : s.running.code.SameBase t.running.code)
    (hinstalls : t.installs = Function.update s.installs i next)
    (hnext : ∀ kind, next.kind? = some kind → kind = .optimizedTier)
    (hafter : t.running.code.tier2 = place)
    (hplace : ∀ block ∈ place.block?, block.kind = .optimizedTier) : KindsInPlace t := by
  refine ⟨h.code.of_sameBase hbase (hafter ▸ hplace), fun j kind hkind => ?_⟩
  rw [hinstalls] at hkind
  rcases update_self_or_of_ne s.installs i next j with ⟨-, hmoved⟩ | hsame
  · exact hnext kind (hmoved ▸ hkind)
  · exact h.installs j kind (hsame ▸ hkind)

/-- Steps leave everything of the right kind. -/
theorem KindsInPlace.step (h : KindsInPlace s) {event : CallEvent Installer Caller} (hstep : Step s event t) :
    KindsInPlace t := by
  cases hstep.effect with
  | install i next running hleads =>
    have hbase := hleads.sameBase
    have hkind := h.installs i
    generalize s.installs i = phase at hleads hkind
    cases hleads.placeChange with
    | taken hbefore hafter hbaseline hoptimized =>
      refine h.replace hbase rfl (fun kind hnext => ?_) hafter nofun
      rw [← Option.some.inj hnext]
      exact hoptimized
    | @filled tier2 _ hafter =>
      -- The kind was looked at when the install began, and the phases have carried it until now.
      refine h.replace hbase rfl hkind hafter fun block hblock => ?_
      rw [← Option.some.inj hblock]
      exact hkind tier2.kind rfl
    | left hafter => exact h.replace hbase rfl nofun hafter nofun
    | none hafter hgoes =>
      exact h.replace hbase rfl (fun kind hnext => hkind kind (hgoes.kind kind hnext)) hafter
        h.code.tier2
  | lockInstall i compiler tier2 hbuilt hfree =>
    have hkind := h.installs i
    rw [hbuilt] at hkind
    exact h.replace ⟨rfl, rfl, rfl⟩ rfl hkind rfl h.code.tier2
  | poisonInstall i compiler tier2 hbuilt =>
    exact h.replace ⟨rfl, rfl, rfl⟩ rfl nofun rfl h.code.tier2
  | unlockInstall i next hnext =>
    have hgoes := InstallPhase.goesOn_of_unlocked? hnext s.running.code.tier2
    exact h.replace ⟨rfl, rfl, rfl⟩ rfl
      (fun kind hkind => h.installs i kind (hgoes.kind kind hkind)) rfl h.code.tier2
  | entry c compiler next running hshared hleads => exact h.congr hleads.sameBase hleads.tier2_eq rfl
  | lockEntry | poisonEntry | unlockEntry | outside => exact h.congr ⟨rfl, rfl, rfl⟩ rfl rfl

/-- Everything is of the right kind at all times. -/
theorem KindsInPlace.run (h : KindsInPlace s) (hrun : Run s trace t) : KindsInPlace t := by
  induction hrun with
  | start => exact h
  | step _ hstep ih => exact ih.step hstep

/-- Whatever calls are or were made on the code of a module, a tier is available exactly if there is a block
of it. The best tier is one that is available; it is the optimized one if and only if that was published or
came with the module. A function that is not imported runs in the tier of the block that provides
it, and an import is in the shared stubs, where asking for a tier is violated. -/
theorem tier_queries_agree {p : Process} {code : ModuleCode} (h : Process.Reachable p)
    (hcode : code ∈ p.codes) (hrun : Run { running := { engine := p.engine, code } } trace s) :
    (∀ tier, ∃ available, s.running.code.hasTier tier = .ok available ∧
      (available = true ↔ ∃ block, s.running.code.tierBlock tier = .ok block ∧ block.tier = .ok tier) ∧
      (available = false → s.running.code.tierBlock tier = .error (.tierMissing tier))) ∧
    (∃ best, s.running.code.bestTier = .ok best ∧ s.running.code.hasTier best = .ok true ∧
      (best = .optimized ↔
        s.running.code.hasOptimized = true ∨ s.running.code.tier1.tier = .ok .optimized)) ∧
    (∀ func tier, s.running.code.imports.length ≤ func →
      ∃ runs, s.running.code.funcHasTier func tier = .ok runs ∧
        (runs = true ↔ (s.running.code.provider func).tier = .ok tier)) ∧
    ∀ func tier, func < s.running.code.imports.length →
      s.running.code.provider func = s.running.code.sharedStubs ∧
        s.running.code.funcHasTier func tier = .error (.noTier .sharedStubs) := by
  have hstart : KindsInPlace ({ running := { engine := p.engine, code } } : Scene Installer Caller) :=
    ⟨h.kindsInPlace code hcode, nofun⟩
  have hkinds := (hstart.run hrun).code
  refine ⟨fun tier => ?_, hkinds.exists_bestTier, fun func tier hdefined => ?_,
    fun func tier himport => hkinds.funcHasTier_import himport tier⟩
  · rcases hkinds.hasTier_cases tier with ⟨havailable, hblock⟩ | ⟨hmissing, hnone⟩
    · exact ⟨true, havailable, iff_of_true rfl hblock, nofun⟩
    · refine ⟨false, hmissing, iff_of_false nofun ?_, fun _ => hnone⟩
      rintro ⟨block, hblock, -⟩
      rw [hnone] at hblock
      contradiction
  · obtain ⟨own, hown⟩ := hkinds.exists_provider_tier hdefined
    refine ⟨_, ModuleCode.funcHasTier_of_tier hown tier, ?_⟩
    rw [hown, decide_eq_true_iff, Except.ok.injEq]

end Scene

/-- A saved module with one import and one function. -/
def Image.oneImport : Image :=
  { Image.oneFunction with
    imports := ModuleParts.oneImport.imports
    sharedStubs :=
      { kind := .sharedStubs
        code := List.replicate 16 0xcc
        tables := ModuleParts.oneImport.sharedStubs.tables }
    tier :=
      { kind := .baselineTier
        code := List.replicate 16 0x90
        tables := ModuleParts.oneImport.tier1.tables }
    tierPlan := {} }

/-- A module with one import and one function is loaded, and an optimized tier is installed. Another
install is to begin then. -/
theorem load_oneImport :
    ∃ (code : ModuleCode) (engine : Engine) (t u : Running) (next : InstallPhase),
      ModuleCode.load {} .empty Image.oneImport.toBytes {} = .ok code engine ∧
      0 < code.imports.length ∧
      Running.installOptimized .failing {} .oneImportOptimized { engine, code } = .ok () t ∧
      InstallPhase.enter Scene.failing {} .oneImportOptimized t = .ok next u ∧
      u.code.imports.length = 1 ∧ u.code.hasOptimized = true ∧
      u.code.hasTier .baseline = .ok true ∧ (u.code.provider 1).tier = .ok .optimized := by
  have hends : (ModuleCode.load {} .empty Image.oneImport.toBytes).succeeds {} (fun code engine =>
      decide (0 < code.imports.length) &&
      (Running.installOptimized .failing {} .oneImportOptimized).succeeds { engine, code } (fun _ t =>
        (InstallPhase.enter Scene.failing {} .oneImportOptimized).succeeds t (fun _ u =>
          decide (u.code.imports.length = 1 ∧ u.code.hasOptimized = true ∧
            u.code.hasTier .baseline = .ok true ∧
            (u.code.provider 1).tier = .ok .optimized)))) = true := by
    decide +kernel
  obtain ⟨code, engine, hload, hcalls⟩ := Op.exists_of_succeeds hends
  obtain ⟨himports, hcalls⟩ := Bool.and_eq_true_iff.mp hcalls
  obtain ⟨⟨⟩, t, hinstall, hcalls⟩ := Op.exists_of_succeeds hcalls
  obtain ⟨next, u, henter, htest⟩ := Op.exists_of_succeeds hcalls
  exact ⟨code, engine, t, u, next, hload, of_decide_eq_true himports, hinstall, henter,
    of_decide_eq_true htest⟩

/-- In a module with an import and a function that has both tiers, and where another install has just been
refused, the function runs in the better tier and the import in none. -/
theorem Scene.tier_queries_agree_in_both_tiers :
    ∃ (p : Process) (code : ModuleCode) (trace : List (CallEvent Unit Empty)) (s : Scene Unit Empty),
      Process.Reachable p ∧ code ∈ p.codes ∧
      Run { running := { engine := p.engine, code } } trace s ∧
      s.running.code.bestTier = .ok .optimized ∧
      (∃ block, s.running.code.tierBlock .baseline = .ok block ∧ block.tier = .ok .baseline) ∧
      s.running.code.funcHasTier 1 .optimized = .ok true ∧
      s.running.code.funcHasTier 0 .optimized = .error (.noTier .sharedStubs) := by
  obtain ⟨code, engine, t, u, next, hload, -, hinstall, henter, himports, hpublished, hbaseline, hfunc⟩ :=
    load_oneImport
  have hloaded := Process.reachable_start.step (.load hload)
  have hinstalled := hloaded.step (.install (Op.ending_of_ok hinstall) (by rintro _ ⟨⟩))
  have run := (Run.start (s := ({ running := t } : Scene Unit Empty))).step
    (.beginInstall () failing {} .oneImportOptimized rfl)
  dsimp only at run
  rw [henter] at run
  obtain ⟨htiers, ⟨best, hbest, -, hoptimized⟩, hdefined, hnone⟩ :=
    tier_queries_agree hinstalled List.mem_cons_self run
  obtain rfl := hoptimized.mpr (.inl hpublished)
  obtain ⟨available, havailable, hblock, -⟩ := htiers .baseline
  obtain rfl := Except.ok.inj (hbaseline.symm.trans havailable)
  obtain ⟨runs, hruns, hown⟩ := hdefined 1 .optimized himports.le
  obtain rfl := hown.mpr hfunc
  exact ⟨_, _, _, _, hinstalled, List.mem_cons_self, run, hbest, hblock.mp rfl, hruns,
    (hnone 0 .optimized (himports ▸ Nat.one_pos)).2⟩

/-- It is a violation to ask whether the import of a module runs in a tier, whichever tier it is. -/
theorem Process.tier_query_of_import_is_violated :
    ∃ (p : Process) (code : ModuleCode), Reachable p ∧ code ∈ p.codes ∧
      code.provider 0 = code.sharedStubs ∧
      ∀ tier, code.funcHasTier 0 tier = .error (.noTier .sharedStubs) := by
  obtain ⟨code, engine, -, -, -, hload, himport, -⟩ := load_oneImport
  have hloaded := reachable_start.step (.load hload)
  have hkinds := hloaded.kindsInPlace code List.mem_cons_self
  exact ⟨_, code, hloaded, List.mem_cons_self, (hkinds.funcHasTier_import himport .baseline).1,
    fun tier => (hkinds.funcHasTier_import himport tier).2⟩

end CompiledCode

import CompiledCode.Proofs.ModuleCode.CallExclusion
import CompiledCode.Proofs.ModuleCode.Exports

/-!
# Entry stubs keep up with the published tier

A request for an entry may read the first tier and get the lock only after an install has
published another one; it reads the provider of its function again then, and so makes its stub
for the tier that is published. An install in turn makes all stubs anew before it publishes its
tier, and gives the lock back only afterwards. Whenever the lock is free, the stubs of all
functions that are defined in the module have thus been compiled for one and the same block.
-/

namespace CompiledCode

namespace ModuleCode

/-- Whether the blocks and the exports made on demand are what they were. -/
structure SameStubs (before after : ModuleCode) : Prop where
  blocks : after.blocks = before.blocks
  exports : after.lazyExports = before.lazyExports

/-- Undisturbed code has the same blocks and exports. -/
theorem Undisturbed.sameStubs {before after : ModuleCode} {funcs : List Nat}
    (h : before.Undisturbed funcs after) : before.SameStubs after := by
  obtain ⟨_, _, _, h⟩ := h
  exact ⟨(congrArg ModuleCode.blocks h :), (congrArg ModuleCode.lazyExports h :)⟩

/-- Undisturbed code has the same place for the optimized tier. -/
theorem Undisturbed.tier2_eq {before after : ModuleCode} {funcs : List Nat}
    (h : before.Undisturbed funcs after) : after.tier2 = before.tier2 := by
  obtain ⟨_, _, _, h⟩ := h
  exact (congrArg ModuleCode.tier2 h :)

/-- The exports after the first stub of a function refer to interpreter entries. -/
theorem filed_of_withStub {before after : ModuleCode} (h : before.Filed) {func : Nat}
    {kind : BlockKind} {stub : NewStub} {tier : Block} {dispatch : DispatchTables}
    (hstub : stub.For before func tier)
    (hafter : after.content = (before.content.withStub func kind stub).withDispatch dispatch) :
    after.Filed := by
  obtain ⟨hblocks, hexports⟩ := stubs_of_withStub hafter
  refine (h.withStub hstub).of_isPrefix ?_ hexports
  rw [hblocks]
  exact List.prefix_rfl

/-- The first stub of a function answers it. -/
theorem serves_of_withStub {before after : ModuleCode} (h : before.Filed) {func : Nat}
    {kind : BlockKind} {stub : NewStub} {tier : Block} {dispatch : DispatchTables}
    (hstub : stub.For before func tier)
    (hafter : after.content = (before.content.withStub func kind stub).withDispatch dispatch) :
    after.Serves func (stub.block.addressOf stub.range.start) := by
  obtain ⟨hblocks, hexports⟩ := stubs_of_withStub hafter
  have hmem := (perm_exports_withStub h kind hstub).symm.subset List.mem_cons_self
  rw [← hexports] at hmem
  refine ⟨_, hmem, rfl, stub.block, stub.range, ?_, hstub.range, rfl⟩
  rw [hblocks]
  exact List.getElem?_concat_length

/-- Whether the code of a module has one more block, which holds a batch of stubs that a compiler has made,
and the note of the call in which it has. -/
structure GainsBatch (compiler : Option QuietCompiler) (batch : StubBatch)
    (before after : ModuleCode) : Prop where
  madeBy : ∃ quiet ∈ compiler, batch.MadeBy quiet.toStubCompiler
  noted : ∃ note, batch.NotedAs note ∧ after.calls = before.calls ++ [note]
  added : after.blocks = before.blocks ++ [batch.block]

/-- Whether the stubs of all functions defined in a module are in given batches, and call into a tier. -/
def UpToDate (code : ModuleCode) (made : StubBatch → Prop) (tier : Block) : Prop :=
  ∀ lazyExport ∈ code.lazyExports, code.imports.length ≤ lazyExport.func →
    ∃ batch, made batch ∧ code.Stubbed tier lazyExport batch

/-- Whether the stubs of all functions defined in a module are for the first tier. -/
def ForFirstTier (code : ModuleCode) : Prop :=
  ∀ lazyExport ∈ code.lazyExports, code.imports.length ≤ lazyExport.func →
    lazyExport.kind = code.tier1.kind

variable {before after : ModuleCode} {made more : StubBatch → Prop} {tier : Block}

/-- The first stub of a function comes in a batch. -/
theorem AddsStub.gains {compiler : QuietCompiler} {func : Nat} {batch : StubBatch}
    (h : before.AddsStub compiler.toStubCompiler func batch after) :
    GainsBatch (some compiler) batch before after := by
  obtain ⟨note, _, hnoted, -, hcontent⟩ := h.content
  exact
    { madeBy := ⟨compiler, rfl, h.madeBy⟩
      noted := ⟨note, hnoted, (congrArg ModuleCode.calls hcontent :)⟩
      added := (congrArg ModuleCode.blocks hcontent :) }

/-- Stubs that are made anew come in a batch. -/
theorem AddsUpgrade.gains {compiler : QuietCompiler} {batch : StubBatch}
    (h : before.AddsUpgrade compiler.toStubCompiler tier (some batch) after) :
    GainsBatch (some compiler) batch before after := by
  obtain ⟨_, -, hcontent⟩ := h.content
  exact
    { madeBy := ⟨compiler, rfl, (h.madeBy batch rfl).1⟩
      noted := h.noted batch rfl
      added := (congrArg ModuleCode.blocks hcontent :) }

/-- Stubs that are in some batches are in more of them. -/
theorem UpToDate.mono (h : before.UpToDate made tier) (hmore : ∀ batch, made batch → more batch) :
    before.UpToDate more tier := by
  intro lazyExport hmem hdefined
  obtain ⟨batch, hmade, hstubbed⟩ := h lazyExport hmem hdefined
  exact ⟨batch, hmore batch hmade, hstubbed⟩

/-- What the exports say of the stubs goes for the same exports and more blocks. -/
theorem UpToDate.of_isPrefix (h : before.UpToDate made tier) (hblocks : before.blocks <+: after.blocks)
    (hexports : after.lazyExports = before.lazyExports) (himports : after.imports = before.imports) :
    after.UpToDate made tier := by
  intro lazyExport hmem hdefined
  rw [hexports] at hmem
  rw [himports] at hdefined
  obtain ⟨batch, hmade, hstubbed⟩ := h lazyExport hmem hdefined
  exact ⟨batch, hmade, hstubbed.of_isPrefix hblocks⟩

/-- The same goes for the same blocks. -/
theorem UpToDate.congr (h : before.UpToDate made tier) (hsame : before.SameStubs after)
    (himports : after.imports = before.imports) : after.UpToDate made tier :=
  h.of_isPrefix (hsame.blocks ▸ List.prefix_rfl) hsame.exports himports

/-- What the exports say of the first tier goes for the same exports. -/
theorem ForFirstTier.congr (h : before.ForFirstTier)
    (hexports : after.lazyExports = before.lazyExports) (hbase : before.SameBase after) :
    after.ForFirstTier := by
  rw [ForFirstTier, hexports, hbase.imports, hbase.tier1]
  exact h

section addsStub

variable {compiler : StubCompiler} {func : Nat} {batch : StubBatch}

/-- The first stub of a function keeps the stubs up to date if it calls into the same tier. -/
theorem UpToDate.addsStub (h : before.UpToDate made tier) (hfiled : before.Filed)
    (hadds : before.AddsStub compiler func batch after) (hmade : made batch)
    (hprovider : before.imports.length ≤ func → before.provider func = tier)
    (himports : after.imports = before.imports) : after.UpToDate made tier := by
  obtain ⟨_, _, -, -, hcontent⟩ := hadds.content
  have hblocks : after.blocks = before.blocks ++ [batch.block] :=
    (congrArg ModuleCode.blocks hcontent :)
  intro lazyExport hmem hdefined
  rw [himports] at hdefined
  obtain ⟨rfl, hstubbed⟩ | hold := hadds.stubbed_or_mem hfiled.sorted hmem
  · rw [hprovider hdefined] at hstubbed
    exact ⟨batch, hmade, hstubbed⟩
  · obtain ⟨other, hother, hstubbed⟩ := h lazyExport hold hdefined
    exact ⟨other, hother, hstubbed.of_isPrefix (hblocks ▸ List.prefix_append _ _)⟩

/-- The first stub of a function is for the first tier like the others if that provides the function. -/
theorem ForFirstTier.addsStub (h : before.ForFirstTier) (hfiled : before.Filed)
    (hadds : before.AddsStub compiler func batch after)
    (hprovider : before.imports.length ≤ func → before.provider func = before.tier1)
    (hbase : before.SameBase after) : after.ForFirstTier := by
  intro lazyExport hmem hdefined
  rw [hbase.imports] at hdefined
  rw [hbase.tier1]
  obtain ⟨rfl, hstubbed⟩ | hold := hadds.stubbed_or_mem hfiled.sorted hmem
  · rw [hstubbed.kind, hprovider hdefined]
  · exact h lazyExport hold hdefined

end addsStub

section addsUpgrade

variable {compiler : StubCompiler} {batch : StubBatch}

/-- The exports after an upgrade refer to interpreter entries. -/
theorem Filed.addsUpgrade (h : before.Filed)
    (hadds : before.AddsUpgrade compiler tier (some batch) after)
    (hblocks : after.blocks = before.blocks ++ [batch.block]) : after.Filed := by
  refine h.moved hadds.exports (hblocks ▸ List.prefix_append _ _) ?_
  rintro _ ⟨⟩
  rw [hblocks]
  exact ⟨List.getElem?_concat_length, (hadds.madeBy batch rfl).1.houses.kind⟩

/-- If the stubs of all defined functions are for the first tier, an upgrade gets them all. -/
theorem ForFirstTier.addsUpgrade (h : before.ForFirstTier)
    (hadds : before.AddsUpgrade compiler tier (some batch) after)
    (hblocks : after.blocks = before.blocks ++ [batch.block]) (hmade : made batch)
    (himports : after.imports = before.imports) : after.UpToDate made tier := by
  intro lazyExport hmem hdefined
  have hat : ∀ other ∈ some batch, after.blocks[before.blocks.length]? = some other.block := by
    rintro _ ⟨⟩
    rw [hblocks]
    exact List.getElem?_concat_length
  obtain ⟨old, hold, hfunc, hmoved⟩ := exists_of_moved hadds.exports hat hmem
  rw [himports, ← hfunc] at hdefined
  obtain ⟨-, _, ⟨⟩, hstubbed⟩ | ⟨hother, -⟩ := hmoved
  · rw [(hadds.madeBy batch rfl).2] at hstubbed
    exact ⟨batch, hmade, hstubbed⟩
  · exact absurd (h old hold hdefined) hother

end addsUpgrade

/-- If the stubs of all defined functions are for the first tier and none is, there are none. -/
theorem ForFirstTier.upToDate_of_ne (h : before.ForFirstTier)
    (hnone : ∀ lazyExport ∈ before.lazyExports, lazyExport.kind ≠ before.tier1.kind) :
    before.UpToDate made tier :=
  fun lazyExport hmem hdefined => absurd (h lazyExport hmem hdefined) (hnone lazyExport hmem)

end ModuleCode

namespace InstallPhase

/-- The tier that the call has put last among the blocks. -/
def last? : InstallPhase → Option Block
  | registered _ tier2 | stopped tier2 _ => some tier2
  | _ => none

/-- The tier that the call has made stubs for and not published. -/
def upgrade? : InstallPhase → Option Block
  | upgraded tier2 _ => some tier2
  | _ => none

/-- Only a call that has the lock has put a tier last. -/
theorem last?_of_not_holds {phase : InstallPhase} (h : phase.holds = false) :
    phase.last? = none := by
  cases phase <;> first | rfl | contradiction

/-- Who gives the lock back has no stubs for a tier that is not published. -/
theorem upgrade?_of_unlocked? {phase next : InstallPhase} (h : phase.unlocked? = some next) :
    phase.upgrade? = none := by
  cases phase <;> first | rfl | contradiction

/-- Only a call that has the lock has made stubs anew. -/
theorem upgrade?_of_not_holds {phase : InstallPhase} (h : phase.holds = false) :
    phase.upgrade? = none := by
  cases phase <;> first | rfl | contradiction

end InstallPhase

namespace Scene

variable {Installer Caller : Type} [DecidableEq Installer] [DecidableEq Caller]
  {s t : Scene Installer Caller} {made more : StubBatch → Prop}

omit [DecidableEq Installer] [DecidableEq Caller] in
/-- Whether the entry stubs are in given batches, and call into the tier that is in use. -/
structure Orderly (made : StubBatch → Prop) (s : Scene Installer Caller) : Prop where
  /-- The exports refer to interpreter entries of their functions. -/
  filed : s.running.code.Filed
  /-- A tier that may be taken back is the last block. -/
  last : ∀ i tier2, (s.installs i).last? = some tier2 →
    s.running.code.blocks.getLast? = some tier2
  /-- Stubs that were made anew are up to date with the tier about to be published. -/
  upgraded : ∀ i tier2, (s.installs i).upgrade? = some tier2 →
    s.running.code.UpToDate made tier2
  /-- Stubs are up to date with the published tier. -/
  published : ∀ tier2, s.running.code.tier2.block? = some tier2 → s.running.code.UpToDate made tier2
  /-- Stubs are for the first tier until they are made anew for another one. -/
  firstTier : s.running.code.tier2.block? = none → (∀ i, (s.installs i).upgrade? = none) →
    s.running.code.ForFirstTier

omit [DecidableEq Installer] [DecidableEq Caller] in
/-- Stubs that are in order in some batches are so in more of them. -/
theorem Orderly.mono (h : Orderly made s) (hmore : ∀ batch, made batch → more batch) :
    Orderly more s :=
  { h with
    upgraded := fun i tier2 hi => (h.upgraded i tier2 hi).mono hmore
    published := fun tier2 ht => (h.published tier2 ht).mono hmore }

omit [DecidableEq Caller] in
/-- An install that goes on without changing the stubs or the tier in use keeps them in order. -/
theorem Orderly.keepInstall (h : Orderly made s) {i : Installer} {next : InstallPhase}
    (hinstalls : t.installs = Function.update s.installs i next)
    (hsame : s.running.code.SameStubs t.running.code)
    (hbase : s.running.code.SameBase t.running.code)
    (htier2 : t.running.code.tier2.block? = s.running.code.tier2.block?)
    (hlast : ∀ tier2, next.last? = some tier2 → (s.installs i).last? = some tier2)
    (hphase : (s.installs i).upgrade? = none) (hnext : next.upgrade? = none) : Orderly made t where
  filed := h.filed.of_isPrefix (hsame.blocks ▸ List.prefix_rfl) hsame.exports
  last j tier2 hj := by
    rw [hsame.blocks]
    rw [hinstalls] at hj
    rcases update_self_or_of_ne s.installs i next j with ⟨rfl, hmoved⟩ | hmoved
    · exact h.last j tier2 (hlast tier2 (hmoved ▸ hj))
    · exact h.last j tier2 (hmoved ▸ hj)
  upgraded j tier2 hj := by
    rw [hinstalls] at hj
    rcases update_self_or_of_ne s.installs i next j with ⟨rfl, hmoved⟩ | hmoved
    · rw [hmoved, hnext] at hj
      contradiction
    · exact (h.upgraded j tier2 (hmoved ▸ hj)).congr hsame hbase.imports
  published tier2 ht := (h.published tier2 (htier2 ▸ ht)).congr hsame hbase.imports
  firstTier hnone hnot := by
    refine (h.firstTier (htier2 ▸ hnone) fun j => ?_).congr hsame.exports hbase
    have hj := hnot j
    rw [hinstalls] at hj
    rcases update_self_or_of_ne s.installs i next j with ⟨rfl, -⟩ | hmoved
    · exact hphase
    · exact hmoved ▸ hj

omit [DecidableEq Installer] [DecidableEq Caller] in
/-- What changes neither the stubs nor the tiers nor an install keeps them in order. -/
theorem Orderly.congr (h : Orderly made s) (hinstalls : t.installs = s.installs)
    (hsame : s.running.code.SameStubs t.running.code)
    (hbase : s.running.code.SameBase t.running.code)
    (htier2 : t.running.code.tier2 = s.running.code.tier2) : Orderly made t where
  filed := h.filed.of_isPrefix (hsame.blocks ▸ List.prefix_rfl) hsame.exports
  last j tier2 hj := by
    rw [hsame.blocks]
    exact h.last j tier2 (hinstalls ▸ hj)
  upgraded j tier2 hj :=
    (h.upgraded j tier2 (hinstalls ▸ hj)).congr hsame hbase.imports
  published tier2 ht := (h.published tier2 (htier2 ▸ ht)).congr hsame hbase.imports
  firstTier hnone hnot :=
    (h.firstTier (htier2 ▸ hnone) fun j => hinstalls ▸ hnot j).congr hsame.exports hbase

omit [DecidableEq Caller] in
/-- A step of the install that has the lock keeps the stubs in order if it does so for itself. -/
theorem Orderly.replace {i : Installer} {next : InstallPhase}
    (hothers : ∀ j, j ≠ i → (s.installs j).holds = false)
    (hinstalls : t.installs = Function.update s.installs i next)
    (hfiled : t.running.code.Filed)
    (hlast : ∀ tier2, next.last? = some tier2 → t.running.code.blocks.getLast? = some tier2)
    (hupgraded : ∀ tier2, next.upgrade? = some tier2 → t.running.code.UpToDate made tier2)
    (hpublished : ∀ tier2, t.running.code.tier2.block? = some tier2 →
      t.running.code.UpToDate made tier2)
    (hfirst : t.running.code.tier2.block? = none → next.upgrade? = none →
      t.running.code.ForFirstTier) : Orderly made t where
  filed := hfiled
  last j tier2 hj := by
    rw [hinstalls] at hj
    by_cases hji : j = i
    · rw [hji, Function.update_self] at hj
      exact hlast tier2 hj
    · rw [Function.update_of_ne hji, InstallPhase.last?_of_not_holds (hothers j hji)] at hj
      contradiction
  upgraded j tier2 hj := by
    rw [hinstalls] at hj
    by_cases hji : j = i
    · rw [hji, Function.update_self] at hj
      exact hupgraded tier2 hj
    · rw [Function.update_of_ne hji, InstallPhase.upgrade?_of_not_holds (hothers j hji)] at hj
      contradiction
  published := hpublished
  firstTier hnone hnot := by
    have hi := hnot i
    rw [hinstalls, Function.update_self] at hi
    exact hfirst hnone hi

omit [DecidableEq Caller] in
/-- The same goes for a step of it after which no tier is published. -/
theorem Orderly.replaceUnpublished {i : Installer} {next : InstallPhase}
    (hothers : ∀ j, j ≠ i → (s.installs j).holds = false)
    (hinstalls : t.installs = Function.update s.installs i next)
    (hnone : t.running.code.tier2.block? = none) (hfiled : t.running.code.Filed)
    (hlast : ∀ tier2, next.last? = some tier2 → t.running.code.blocks.getLast? = some tier2)
    (hupgraded : ∀ tier2, next.upgrade? = some tier2 → t.running.code.UpToDate made tier2)
    (hfirst : next.upgrade? = none → t.running.code.ForFirstTier) : Orderly made t := by
  refine .replace hothers hinstalls hfiled hlast hupgraded (fun tier2 hpublished => ?_) fun _ => hfirst
  rw [hnone] at hpublished
  contradiction

omit [DecidableEq Installer] [DecidableEq Caller] in
/-- As long as the install that has the lock has not made stubs anew, they are for the first tier. -/
theorem Orderly.forFirstTier (h : Orderly made s) (hguarded : Guarded s) {i : Installer}
    (hholds : (s.installs i).holds = true) (hnone : s.running.code.tier2.block? = none)
    (hi : (s.installs i).upgrade? = none) : s.running.code.ForFirstTier := by
  refine h.firstTier hnone fun j => ?_
  by_cases hji : j = i
  · rw [hji, hi]
  · exact InstallPhase.upgrade?_of_not_holds ((hguarded.of_install hholds).1 j hji)

omit [DecidableEq Installer] [DecidableEq Caller] in
/-- The first stub of a function, made while no install has the lock, is in order. -/
theorem Orderly.addsStub (h : Orderly made s) (hinstalls : t.installs = s.installs)
    (hfree : ∀ i, (s.installs i).holds = false) {compiler : StubCompiler} {func : Nat}
    {batch : StubBatch} (hadds : s.running.code.AddsStub compiler func batch t.running.code)
    (hmade : made batch) (hbase : s.running.code.SameBase t.running.code)
    (htier2 : t.running.code.tier2 = s.running.code.tier2) : Orderly made t := by
  constructor
  · exact h.filed.addsStub hadds
  · intro i tier2 hi
    rw [hinstalls, InstallPhase.last?_of_not_holds (hfree i)] at hi
    contradiction
  · intro i tier2 hi
    rw [hinstalls, InstallPhase.upgrade?_of_not_holds (hfree i)] at hi
    contradiction
  · intro tier2 hpublished
    rw [htier2] at hpublished
    exact (h.published tier2 hpublished).addsStub h.filed hadds hmade
      (ModuleCode.provider_of_published hpublished) hbase.imports
  · intro hnone _
    rw [htier2] at hnone
    have hfirst := h.firstTier hnone fun i => InstallPhase.upgrade?_of_not_holds (hfree i)
    exact hfirst.addsStub h.filed hadds (ModuleCode.provider_of_not_published hnone) hbase

omit [DecidableEq Caller] in
/-- Steps of an install keep the stubs in order, unless it panics while it has the lock. -/
theorem Orderly.install (h : Orderly made s) (hguarded : Guarded s) (hexclusive : Exclusive s)
    {i : Installer} {next : InstallPhase} {running : Running}
    (hleads : (s.installs i).Leads s.running.code running.code next)
    (hmade : ∀ batch, ModuleCode.GainsBatch (s.installs i).compiler? batch s.running.code running.code →
      made batch)
    (hlive : next.isPanicked = true → (s.installs i).holds = false) :
    Orderly made (s.moveInstall i next running) := by
  have hbase := hleads.sameBase
  -- What holds of the others while the install has the lock and owns the place of the tier.
  have hothers (hholds : (s.installs i).holds = true) := (hguarded.of_install hholds).1
  have hnone (howns : (s.installs i).owns = true) := hexclusive.unpublished howns
  have hfirst (hholds : (s.installs i).holds = true) (howns : (s.installs i).owns = true) :=
    h.forFirstTier hguarded hholds (hnone howns)
  have hkind := hexclusive.kind i
  have hlast := h.last i
  have hupgraded := h.upgraded i
  have hkeep (hsame : s.running.code.SameStubs running.code)
      (htier2 : running.code.tier2.block? = s.running.code.tier2.block?)
      (hlast : ∀ tier2, next.last? = some tier2 → (s.installs i).last? = some tier2)
      (hphase : (s.installs i).upgrade? = none) (hnext : next.upgrade? = none) :
      Orderly made (s.moveInstall i next running) :=
    h.keepInstall rfl hsame hbase htier2 hlast hphase hnext
  generalize s.installs i = phase at *
  cases hleads with
  | begin _ _ habsent hafter =>
    refine hkeep (by rw [hafter]; exact ⟨rfl, rfl⟩) ?_ nofun rfl rfl
    rw [hafter, habsent]
    rfl
  | refuse _ hafter | reject hafter | build _ hafter | buildFails hafter =>
    exact hkeep (by rw [hafter]; exact ⟨rfl, rfl⟩) (by rw [hafter]) nofun rfl rfl
  | giveWay hafter =>
    refine hkeep (by rw [hafter]; exact ⟨rfl, rfl⟩) ?_ nofun rfl rfl
    rw [hafter, hnone rfl]
    rfl
  | registerFails hafter =>
    have hundisturbed : s.running.code.Undisturbed [] running.code := .of_content hafter
    exact hkeep hundisturbed.sameStubs (by rw [hundisturbed.tier2_eq]) nofun rfl rfl
  | @register compiler tier2 hafter =>
    have hblocks : running.code.blocks = s.running.code.blocks ++ [tier2] :=
      (congrArg ModuleCode.blocks hafter :)
    have hexports : running.code.lazyExports = s.running.code.lazyExports :=
      (congrArg ModuleCode.lazyExports hafter :)
    have htier2 : running.code.tier2 = s.running.code.tier2 := (congrArg ModuleCode.tier2 hafter :)
    refine .replaceUnpublished (hothers rfl) rfl (htier2 ▸ hnone rfl) ?_ ?_ nofun ?_
    · exact h.filed.of_isPrefix (hblocks ▸ List.prefix_append _ _) hexports
    · rintro _ ⟨⟩
      change running.code.blocks.getLast? = _
      rw [hblocks]
      exact List.getLast?_concat
    · intro _
      exact (hfirst rfl rfl rfl).congr hexports hbase
  | nothingToUpgrade hne hafter =>
    have hsame : s.running.code.SameStubs running.code := by
      rw [hafter]
      exact ⟨rfl, rfl⟩
    have htier2 : running.code.tier2 = s.running.code.tier2 := congrArg ModuleCode.tier2 hafter
    refine .replaceUnpublished (hothers rfl) rfl (htier2 ▸ hnone rfl) ?_ nofun ?_ nofun
    · exact h.filed.of_isPrefix (hsame.blocks ▸ List.prefix_rfl) hsame.exports
    · rintro _ ⟨⟩
      exact ((hfirst rfl rfl rfl).upToDate_of_ne hne).congr hsame hbase.imports
  | upgrade batch hadds hafter =>
    have hblocks : running.code.blocks = s.running.code.blocks ++ [batch.block] :=
      (congrArg ModuleCode.blocks hafter :)
    have htier2 : running.code.tier2 = s.running.code.tier2 := (congrArg ModuleCode.tier2 hafter :)
    refine .replaceUnpublished (hothers rfl) rfl (htier2 ▸ hnone rfl) ?_ nofun ?_ nofun
    · exact h.filed.addsUpgrade hadds hblocks
    · rintro _ ⟨⟩
      exact (hfirst rfl rfl rfl).addsUpgrade hadds hblocks (hmade batch hadds.gains) hbase.imports
  | upgradeFails hafter =>
    exact hkeep hafter.sameStubs (by rw [hafter.tier2_eq]) (fun _ => id) rfl rfl
  | publish hafter =>
    have hsame : s.running.code.SameStubs running.code := by
      rw [hafter]
      exact ⟨rfl, rfl⟩
    refine Orderly.replace (hothers rfl) rfl ?_ nofun nofun ?_ ?_
    · exact h.filed.of_isPrefix (hsame.blocks ▸ List.prefix_rfl) hsame.exports
    · intro tier2 hpublished
      change running.code.tier2.block? = _ at hpublished
      rw [hafter] at hpublished
      obtain rfl := Option.some.inj hpublished
      exact (hupgraded _ rfl).congr hsame hbase.imports
    · intro hnone
      change running.code.tier2.block? = _ at hnone
      rw [hafter] at hnone
      contradiction
  | redirect hafter =>
    exact hkeep hafter.sameStubs (by rw [hafter.tier2_eq]) nofun rfl rfl
  | withdraw hafter =>
    have hblocks : running.code.blocks = s.running.code.blocks.dropLast :=
      (congrArg ModuleCode.blocks hafter :)
    have hexports : running.code.lazyExports = s.running.code.lazyExports :=
      (congrArg ModuleCode.lazyExports hafter :)
    have htier2 : running.code.tier2 = s.running.code.tier2 := (congrArg ModuleCode.tier2 hafter :)
    refine .replaceUnpublished (hothers rfl) rfl (htier2 ▸ hnone rfl) ?_ nofun nofun ?_
    · refine h.filed.of_withoutLast (hlast _ rfl) ?_ hblocks hexports
      rw [(hkind _ rfl).1]
      nofun
    · intro _
      exact (hfirst rfl rfl rfl).congr hexports hbase
  | panic hworks hafter =>
    have hholds := hlive rfl
    exact hkeep hafter.sameStubs (by rw [hafter.tier2_eq]) nofun
      (InstallPhase.upgrade?_of_not_holds hholds) rfl
  | panicWithdrawing hafter => cases hlive rfl

omit [DecidableEq Installer] in
/-- Steps of a call for an entry keep the stubs in order, unless it panics while it has the lock. -/
theorem Orderly.entry (h : Orderly made s) (hguarded : Guarded s) {c : Caller} {next : EntryPhase}
    {running : Running} {compiler : Option QuietCompiler}
    (hleads : (s.entries c).Leads compiler s.running.code running.code next)
    (hmade : ∀ batch, ModuleCode.GainsBatch compiler batch s.running.code running.code → made batch)
    (hlive : next.isPanicked = true → (s.entries c).holds = false) :
    Orderly made (s.moveEntry c next running) := by
  have hbase := hleads.sameBase
  have htier2 := hleads.tier2_eq
  have hfree (hholds : (s.entries c).holds = true) := (hguarded.of_entry hholds).1
  have hkeep (hsame : s.running.code.SameStubs running.code) :
      Orderly made (s.moveEntry c next running) :=
    h.congr rfl hsame hbase htier2
  generalize s.entries c = phase at *
  cases hleads with
  | eager _ _ _ hafter | read _ _ hafter | hint hafter | noHint hafter | lookFinds _ hafter
  | lookMisses hafter | find _ hafter | miss hafter | panic hafter =>
    refine hkeep ?_
    rw [hafter]
    exact ⟨rfl, rfl⟩
  | make _ _ _ _ _ hcompiled =>
    obtain ⟨quiet, rfl, batch, hadds⟩ := hcompiled
    exact h.addsStub (t := s.moveEntry c _ running) rfl (hfree rfl) hadds (hmade batch hadds.gains) hbase
      htier2
  | fail hafter => exact hkeep (ModuleCode.Undisturbed.of_attempted hafter).sameStubs
  | panicAttempting | panicMade => cases hlive rfl

/-- Once the lock is of no use, it stays so. -/
theorem lock_eq_poisoned {event : CallEvent Installer Caller} (hguarded : Guarded s)
    (hstep : Step s event t) (h : s.lock = .poisoned) : t.lock = .poisoned := by
  cases hstep.effect with
  | install i next running hleads =>
    rw [moveInstall, h]
    exact ite_self _
  | entry c compiler next running hshared hleads =>
    rw [moveEntry, h]
    exact ite_self _
  | lockInstall i compiler tier2 hbuilt hfree | lockEntry c func found hbuilt hfree =>
    rw [h] at hfree
    contradiction
  | unlockInstall i next hnext =>
    rw [hguarded.install i (InstallPhase.holds_of_unlocked? hnext).1] at h
    contradiction
  | unlockEntry c func result hleaving =>
    rw [hguarded.entry c (by rw [hleaving]; rfl)] at h
    contradiction
  | poisonInstall | poisonEntry | outside => exact h

/-- Steps keep the stubs in order as long as nobody panics while he has the lock. -/
theorem Orderly.step {event : CallEvent Installer Caller} (h : Orderly made s)
    (hguarded : Guarded s) (hexclusive : Exclusive s) (hstep : Step s event t)
    (hmade : ∀ batch, ModuleCode.GainsBatch event.compiler? batch s.running.code t.running.code →
      made batch)
    (hlive : t.lock ≠ .poisoned) : Orderly made t := by
  cases hstep.effect with
  | install i next running hleads =>
    refine h.install hguarded hexclusive hleads hmade fun hpanic => ?_
    rw [← Bool.not_eq_true]
    intro hholds
    exact hlive (if_pos (by rw [hpanic, hholds]; rfl))
  | lockInstall i compiler tier2 hbuilt hfree =>
    refine h.keepInstall (i := i) rfl ⟨rfl, rfl⟩ ⟨rfl, rfl, rfl⟩ rfl nofun ?_ rfl
    rw [hbuilt]
    rfl
  | poisonInstall i compiler tier2 hbuilt =>
    refine h.keepInstall (i := i) rfl ⟨rfl, rfl⟩ ⟨rfl, rfl, rfl⟩ rfl nofun ?_ rfl
    rw [hbuilt]
    rfl
  | unlockInstall i next hnext =>
    have hphase := InstallPhase.upgrade?_of_unlocked? hnext
    have hnext := (InstallPhase.holds_of_unlocked? hnext).2
    refine h.keepInstall (i := i) rfl ⟨rfl, rfl⟩ ⟨rfl, rfl, rfl⟩ rfl ?_ hphase ?_
    · rw [InstallPhase.last?_of_not_holds hnext]
      nofun
    · exact InstallPhase.upgrade?_of_not_holds hnext
  | entry c compiler next running hshared hleads =>
    refine h.entry hguarded hleads hmade fun hpanic => ?_
    rw [← Bool.not_eq_true]
    intro hholds
    exact hlive (if_pos (by rw [hpanic, hholds]; rfl))
  | lockEntry | poisonEntry | unlockEntry => exact h.congr rfl ⟨rfl, rfl⟩ ⟨rfl, rfl, rfl⟩ rfl
  | outside => exact h.congr rfl ⟨rfl, rfl⟩ ⟨rfl, rfl, rfl⟩ rfl

end Scene

end CompiledCode

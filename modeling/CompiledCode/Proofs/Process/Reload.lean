import CompiledCode.Proofs.Image.Delimited
import CompiledCode.Proofs.Process.Failure
import CompiledCode.Proofs.Process.Mirror
import CompiledCode.Proofs.Process.Refusals
import CompiledCode.Proofs.Relocation

/-!
# What is loaded means what was saved

A tier of a module is saved with the shared stubs, and loaded into any process, where they are at other
addresses. The code that is saved could be patched once, hence it can be patched there as well if the
symbols are defined; and its functions were covered once, hence they are covered again. So loading
succeeds unless the image is refused or something else is. Whatever a program counter at some offset
stood for it stands for at the same offset now, and calls are led to the same offsets of the tier as
they were when the tier was installed, be it the first one or the optimized one.
-/

namespace CompiledCode

/-- Code that was patched without stopping early is complete. -/
theorem Patched.stopped_of_complete {patched : Patched} {code : Bytes}
    (h : patched.complete = .ok code) : patched.stopped = none := by
  rw [complete] at h
  split at h
  · assumption
  · contradiction

namespace Memory.Bears

variable {memory later : Memory} {block twin : Block} {compiled : CompiledBlock} {plan : PatchPlan}

/-- What is saved of code that was patched once can be patched anywhere, given the symbols. -/
theorem patchable (h : memory.Bears block compiled plan) {symbols : SymbolTable}
    {trapHandler : Option UInt64} (hsymbols : ∀ symbol, plan.symbolic symbol ≠ [] →
      (resolveSymbol symbols trapHandler symbol).isSome = true) :
    ModuleCode.Patchable (compiled.erased plan) plan symbols trapHandler := by
  obtain ⟨_, _, hpatched⟩ := h.patched
  have hbelow : block.segment.base + compiled.code.length ≤ Memory.endOfAddresses := h.stop ▸ h.below
  intro base hbase
  rw [compiled.length_erased] at hbase
  exact PatchPlan.stopped_apply_elsewhere (compiled.length_erased plan) hbelow hbase hsymbols
    (Patched.stopped_of_complete hpatched)

/-- A block that bears what was saved of another one has the same tables at another place. -/
theorem mirrors (h : memory.Bears block compiled plan)
    (htwin : later.Bears twin (compiled.erased plan) plan) (hcovers : block.Covers compiled)
    (hcovers' : twin.Covers (compiled.erased plan)) : twin.Mirrors block where
  kind := htwin.kind.trans h.kind.symm
  length := by
    rw [Block.length, Block.length, htwin.start, htwin.stop, h.start, h.stop, compiled.length_erased]
  tables := htwin.tables.trans h.tables.symm
  coverage := hcovers'.coverage.trans hcovers.coverage.symm

end Memory.Bears

/-- An image that is not refused has the mode of the host. -/
theorem Image.mode_of_fault? {image : Image} {host : Settings} (h : image.fault? host = none) :
    image.settings.mode = host.mode := by
  simp only [fault?, Option.orElse_eq_none] at h
  obtain ⟨hsuits, -⟩ := h
  rw [unsuitable?] at hsuits
  split at hsuits
  · contradiction
  · rename_i hmode
    exact Decidable.not_not.mp hmode

namespace ModuleCode

/-- Whether a module is what comes of another one when one of its tiers is saved and loaded. -/
structure Reloaded (code : ModuleCode) (tier : Block) (other : ModuleCode) : Prop where
  imports : other.imports = code.imports
  moduleName : other.moduleName = code.moduleName
  funcNames : other.funcNames = code.funcNames
  sharedStubs : other.sharedStubs.Mirrors code.sharedStubs
  tier1 : other.tier1.Mirrors tier
  blocks : other.blocks = [other.sharedStubs, other.tier1]
  tier2 : other.tier2 = .absent
  lazyExports : other.lazyExports = []
  inStubs : ∀ offset < code.sharedStubs.length,
    code.AnswersAlike code.sharedStubs other other.sharedStubs offset
  inTier : ∀ offset < tier.length, code.AnswersAlike tier other other.tier1 offset
  jitEntries : ∀ func, other.dispatch.HasJitEntry func ↔
    func ∈ code.sharedStubs.tables.jitFuncs ++ tier.tables.jitFuncs

/-- Whether calls of the functions of a tier lead to the same offsets of it in two dispatch tables. -/
def LedAlike (tier : Block) (tables : DispatchTables) (twin : Block) (tables' : DispatchTables) :
    Prop :=
  ∀ range ∈ tier.tables.ranges, range.kind = .function → ∀ func, range.func = some func →
    ∃ offset, tables.tiering[func]? = some (tier.base + offset) ∧
      tables'.tiering[func]? = some (twin.base + offset)

end ModuleCode

namespace Process

variable {source : Source} {p q : Process} {code other : ModuleCode} {tier : Tier} {block : Block}
  {host : Settings} {symbols : SymbolTable} {installs : List (Block × DispatchTables)}

/-- The saved image of a module is loaded unless it is refused or something else is. -/
theorem Built.load_failsOn (h : Built source p code) (htier : code.hasTier tier = .ok true)
    (hfault : (source.image tier).fault? host = none) (hadmits : Codec.image.admits (source.image tier))
    (hshared : ∀ symbol, source.sharedPlan.symbolic symbol ≠ [] → (symbols symbol).isSome = true)
    (hsymbols : ∀ symbol, symbol ≠ .handleTrap → (source.plan tier).symbolic symbol ≠ [] →
      (symbols symbol).isSome = true) (hq : Reachable q) :
    (ModuleCode.load host symbols (source.image tier).toBytes).FailsOn Engine.refusals q.engine := by
  obtain ⟨-, -, hdescribes⟩ := h.describes
  obtain ⟨block, hblock, -, hbears⟩ := hdescribes.exists_tierBlock htier
  have hcovered := h.covered
  have hcovers := hcovered.of_tierBlock hdescribes.tier1.kind htier hblock
  have hread := Image.ofBytes_toBytes_append hadmits []
  rw [List.append_nil] at hread
  have hpatchable : ModuleCode.Patchable (source.image tier).sharedStubs
      (source.image tier).sharedPlan symbols none :=
    hdescribes.sharedStubs.patchable fun symbol hsites =>
      isSome_resolveSymbol_iff.mpr (.inr (hshared symbol hsites))
  have hpatchable' (address : UInt64) : ModuleCode.Patchable (source.image tier).tier
      (source.image tier).tierPlan symbols (some address) := by
    refine hbears.patchable fun symbol hsites => isSome_resolveSymbol_iff.mpr ?_
    by_cases htrap : symbol = .handleTrap
    · exact .inl ⟨htrap, rfl⟩
    · exact .inr (hsymbols symbol htrap hsites)
  rw [ModuleCode.load, hread]
  exact ModuleCode.ofImage_failsOn hq.inStep hfault hpatchable hpatchable'
    (hcovered.sharedStubs.erased _) (hcovers.erased _)

/-- A module that is loaded has what was saved, at other addresses. -/
theorem Built.reloaded (h : Built source p code) (htier : code.hasTier tier = .ok true)
    (hblock : code.tierBlock tier = .ok block) (hfault : (source.image tier).fault? host = none)
    (hq : Reachable q) {after : Engine}
    (hend : ModuleCode.load host symbols (source.image tier).toBytes q.engine = .ok other after) :
    code.Reloaded block other := by
  obtain ⟨hp, hcode, hdescribes⟩ := h.describes
  have hcovered := h.covered
  have hbuilt := hq.built_of_load_in (source.image tier) source.optimized source.optimizedPlan hend
  obtain ⟨hq', hother, hdescribes'⟩ := hbuilt.describes
  have hcovered' := hbuilt.covered
  obtain ⟨hin, hbears⟩ := hdescribes.of_tierBlock htier hblock
  have hcovers := hcovered.of_tierBlock hdescribes.tier1.kind htier hblock
  have hstubs : other.sharedStubs.Mirrors code.sharedStubs :=
    hdescribes.sharedStubs.mirrors hdescribes'.sharedStubs hcovered.sharedStubs hcovered'.sharedStubs
  have htier1 : other.tier1.Mirrors block := hbears.mirrors hdescribes'.tier1 hcovers hcovered'.tier1
  have hkind : source.sharedStubs.kind = .sharedStubs := (Image.checked_of_fault? hfault).sharedKind
  obtain ⟨parts, hcreated⟩ := exists_createdFrom_of_load hend
  refine
    { imports := hdescribes'.imports.trans hdescribes.imports.symm
      moduleName := hdescribes'.moduleName.trans hdescribes.moduleName.symm
      funcNames := hdescribes'.funcNames.trans hdescribes.funcNames.symm
      sharedStubs := hstubs
      tier1 := htier1
      blocks := hcreated.blocks.1
      tier2 := hcreated.fresh.1
      lazyExports := hcreated.fresh.2
      inStubs := fun offset hoffset => ?_
      inTier := fun offset hoffset => ?_
      jitEntries := fun func => ?_ }
  · refine answersAlike hp.inStep hq'.inStep hcode hother h.tiers_subset.1 hbuilt.tiers_subset.1
      hdescribes.owned.1 hdescribes'.owned.1 hdescribes.sharedStubs.start hdescribes'.sharedStubs.start
      hstubs ?_ hoffset
    exact iff_of_false (hbuilt.sharedStubs_not_mem_tiers hkind) (h.sharedStubs_not_mem_tiers hkind)
  · exact answersAlike hp.inStep hq'.inStep hcode hother h.tiers_subset.1 hbuilt.tiers_subset.1
      (h.tiers_subset.1 hin) hdescribes'.owned.2.1 hbears.start hdescribes'.tier1.start htier1
      (iff_of_true (ModuleCode.mem_tiers.mpr (.inl rfl)) hin) hoffset
  · rw [DispatchTables.hasJitEntry_of_ofBlocks hcreated.ofBlocks_eq hdescribes'.sharedStubs.positive
      hdescribes'.tier1.positive, hstubs.tables, htier1.tables]

/-- A module that is loaded leads calls to the offsets of the tier that they were led to when the tier
was installed. -/
theorem Traced.ledAlike (h : Traced source p code installs) (htier : code.hasTier tier = .ok true)
    (hblock : code.tierBlock tier = .ok block) (hfault : (source.image tier).fault? host = none)
    (hq : Reachable q) {after : Engine}
    (hend : ModuleCode.load host symbols (source.image tier).toBytes q.engine = .ok other after)
    (hmode : source.settings.mode = .tiering) {tables : DispatchTables}
    (hinstalled : (block, tables) ∈ installs) :
    ModuleCode.LedAlike block tables other.tier1 other.dispatch := by
  obtain ⟨-, -, hdescribes⟩ := h.built.describes
  obtain ⟨-, hbears⟩ := hdescribes.of_tierBlock htier hblock
  have hbuilt := hq.built_of_load_in (source.image tier) source.optimized source.optimizedPlan hend
  obtain ⟨-, -, hdescribes'⟩ := hbuilt.describes
  have hsame : other.tier1.tables = block.tables := hdescribes'.tier1.tables.trans hbears.tables.symm
  obtain ⟨parts, hcreated⟩ := exists_createdFrom_of_load hend
  have hhost : host.mode = .tiering := (Image.mode_of_fault? hfault).symm.trans hmode
  intro range hin hkind func hfunc
  obtain ⟨body, hbody⟩ := DispatchTables.exists_bodyOf?_eq_some hin hkind hfunc
  have hled := h.tiering_eq hmode hinstalled hbody
  have hled' := (DispatchTables.tiering_of_ofBlocks hcreated.ofBlocks_eq).2.2 hhost func body
    (hsame ▸ hbody)
  refine ⟨body.tierEntry, hled.trans ?_, hled'.trans ?_⟩
  · rw [Block.addressOf, Block.base, hbears.start, Nat.add_zero]
  · rw [Block.addressOf, Block.base, hdescribes'.tier1.start, Nat.add_zero]

/-- A tier that a module has at some time of its life was installed before, and can be saved with the
shared stubs. Let the numbers of the image fit their formats and the symbols that it refers to be
defined. Then wherever it is loaded, it is refused, or a request is, or there is a module with the same
imports, names, tables and coverage afterwards, where every program counter stands for the same as at
that offset before. The functions with a jit entry are those that some code range that was saved is a
jit entry of; and in tiering mode calls lead to the offsets of the tier that they led to when it was
installed. -/
theorem loading_preserves_meaning (h : Traced source p code installs)
    (htier : code.hasTier tier = .ok true) :
    ∃ image block, code.image p.engine.memory source.sharedPlan tier (source.plan tier) = .ok image ∧
      code.tierBlock tier = .ok block ∧ (∃ tables, (block, tables) ∈ installs) ∧
      ∀ (host : Settings) (symbols : SymbolTable) (q : Process)
        (result : Except Fault ModuleCode) (after : Engine),
        image.fault? host = none → Codec.image.admits image →
        (∀ symbol, source.sharedPlan.symbolic symbol ≠ [] → (symbols symbol).isSome = true) →
        (∀ symbol, symbol ≠ .handleTrap → (source.plan tier).symbolic symbol ≠ [] →
          (symbols symbol).isSome = true) →
        Reachable q → (ModuleCode.load host symbols image.toBytes).ending q.engine = (result, after) →
        after.refusals = q.engine.refusals →
        ∃ other, result = .ok other ∧ code.Reloaded block other ∧
          (code.settings.mode = .tiering → ∀ tables, (block, tables) ∈ installs →
            ModuleCode.LedAlike block tables other.tier1 other.dispatch) := by
  obtain ⟨-, -, hdescribes⟩ := h.built.describes
  obtain ⟨block, hblock, hin, -⟩ := hdescribes.exists_tierBlock htier
  refine ⟨source.image tier, block, hdescribes.image htier, hblock, h.exists_install hin, ?_⟩
  intro host symbols q result after hfault hadmits hshared hsymbols hq hending hrefusals
  have hfails := h.built.load_failsOn htier hfault hadmits hshared hsymbols hq
  rw [Op.ending] at hending
  split at hending
  · rename_i other later hend
    obtain ⟨rfl, rfl⟩ := Prod.mk.inj hending
    refine ⟨other, rfl, h.built.reloaded htier hblock hfault hq hend, fun hmode tables hinstalled => ?_⟩
    rw [hdescribes.settings] at hmode
    exact h.ledAlike htier hblock hfault hq hend hmode hinstalled
  · rename_i fault later hend
    obtain ⟨-, rfl⟩ := Prod.mk.inj hending
    exact absurd hrefusals (Nat.ne_of_gt (hfails.of_error hend))

end Process

/-- A saved module with one function that goes through both tiers. -/
def Image.oneTiering : Image := { Image.oneFunction with settings := { mode := .tiering } }

/-- An optimized tier with one function, which is entered at its last byte from the other tier. -/
def CompiledBlock.oneOptimized : CompiledBlock where
  kind := .optimizedTier
  code := [0x90, 0x90, 0xc3]
  tables :=
    { CompiledBlock.oneFunction.tables with
      ranges := [{ kind := .function, func := some 0, start := 0, stop := 3, tierEntry := 2 }] }

/-- The same module, saved with the optimized tier. -/
def Image.oneOptimized : Image := { Image.oneTiering with tier := .oneOptimized, tierPlan := {} }

/-- A module with one function can be given an optimized tier, which can be loaded at another address. -/
theorem install_oneOptimized :
    ∃ c engine t tier2 d engine',
      ModuleCode.load { mode := .tiering } .empty Image.oneTiering.toBytes {} = .ok c engine ∧
      Running.installOptimized .failing {} .oneOptimized { engine, code := c } = .ok () t ∧
      ModuleCode.load { mode := .tiering } .empty Image.oneOptimized.toBytes { memory := .elsewhere } =
        .ok d engine' ∧
      t.code.tier2.block? = some tier2 ∧ t.code.hasTier .optimized = .ok true ∧
      t.code.tierBlock .optimized = .ok tier2 ∧ engine'.refusals = 0 ∧ tier2.base ≠ d.tier1.base := by
  have hends : (ModuleCode.load { mode := .tiering } .empty Image.oneTiering.toBytes).succeeds {}
      (fun c engine =>
        (Running.installOptimized .failing {} .oneOptimized).succeeds { engine, code := c } (fun _ t =>
          (ModuleCode.load { mode := .tiering } .empty Image.oneOptimized.toBytes).succeeds
            { memory := .elsewhere } (fun d engine' =>
              t.code.tier2.block?.any fun tier2 =>
                decide (t.code.tier1.kind.tier? = some .baseline ∧
                  tier2.kind.tier? = some .optimized ∧ engine'.refusals = 0 ∧
                  tier2.base ≠ d.tier1.base)))) = true := by decide +kernel
  obtain ⟨c, engine, hload, hends⟩ := Op.exists_of_succeeds hends
  obtain ⟨⟨⟩, t, hinstall, hends⟩ := Op.exists_of_succeeds hends
  obtain ⟨d, engine', hload', hends⟩ := Op.exists_of_succeeds hends
  obtain ⟨tier2, htier2, hends⟩ := (Option.any_eq_true _ _).mp hends
  obtain ⟨hfirst, hsecond, hrefusals, hdiffer⟩ := of_decide_eq_true hends
  refine ⟨c, engine, t, tier2, d, engine', hload, hinstall, hload', htier2, ?_, ?_, hrefusals, hdiffer⟩
  · rw [ModuleCode.hasTier, Block.tier_eq_ok_iff.mpr hfirst, htier2]
    simp only [Block.tier_eq_ok_iff.mpr hsecond]
    rfl
  · rw [ModuleCode.tierBlock, Block.tier_eq_ok_iff.mpr hfirst, htier2]
    simp only [Block.tier_eq_ok_iff.mpr hsecond]
    rfl

namespace Process

/-- The optimized tier of a module means the same when it is loaded as a first tier at another address,
where calls lead to the same offset of it. -/
theorem loading_preserves_meaning_elsewhere :
    ∃ (p : Process) (c d : ModuleCode) (installs : List (Block × DispatchTables)) (block : Block)
      (tables : DispatchTables),
      Traced (Image.oneTiering.source .oneOptimized {}) p c installs ∧
      c.tierBlock .optimized = .ok block ∧ block.base ≠ d.tier1.base ∧ c.Reloaded block d ∧
      (block, tables) ∈ installs ∧ ModuleCode.LedAlike block tables d.tier1 d.dispatch := by
  obtain ⟨c, engine, t, tier2, d, engine', hload, hinstall, hload', htier2, htier, hsecond, hrefusals,
    hdiffer⟩ := install_oneOptimized
  have hstart : Reachable { engine := { memory := .elsewhere } } :=
    .start (Memory.sound_of_mapped_eq_nil (Nat.le_refl _) rfl) RegionMap.settled_empty
  have hfirst := reachable_start.traced_of_load .oneTiering .oneOptimized {} hload
  have htraced : Traced (Image.oneTiering.source .oneOptimized {})
      { engine := t.engine, placed := [], codes := [t.code] } t.code
      [(tier2, t.code.dispatch), (c.tier1, c.dispatch)] := .install hfirst hinstall htier2
  obtain ⟨image, block, himage, hblock, -, hloads⟩ := loading_preserves_meaning htraced htier
  obtain ⟨-, -, hdescribes⟩ := htraced.built.describes
  obtain rfl : Image.oneOptimized = image := by
    have hsame := hdescribes.image htier
    rw [himage] at hsame
    exact (Except.ok.inj hsame).symm
  obtain rfl : tier2 = block := Except.ok.inj (hsecond.symm.trans hblock)
  have hadmits : Codec.image.admits Image.oneOptimized :=
    (Image.admits_iff_isOk _).mpr (by decide +kernel)
  have hsettings : t.code.settings.mode = .tiering := by
    rw [hdescribes.settings]
    rfl
  obtain ⟨other, hother, hreloaded, hled⟩ := hloads { mode := .tiering } .empty _ _ _ (by decide +kernel)
    hadmits (fun _ hsites => absurd rfl hsites) (fun _ _ hsites => absurd rfl hsites) hstart
    (Op.ending_of_ok hload') hrefusals
  obtain rfl := Except.ok.inj hother
  exact ⟨_, t.code, d, _, _, _, htraced, hblock, hdiffer, hreloaded, List.mem_cons_self,
    hled hsettings _ List.mem_cons_self⟩

end Process

end CompiledCode

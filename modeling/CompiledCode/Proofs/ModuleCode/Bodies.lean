import CompiledCode.Proofs.Coverage
import CompiledCode.Proofs.ModuleCode.Life

/-!
# Which body of a function calls lead to

Code ranges may hold several bodies of one function, and nothing that a block or a module is made by
rejects them. The map of a block has the first body of a function, which is what entry stubs call. In
tiering mode the tiering slot of the function is overwritten body by body, so that it leads to the
last one. Hence the slot and the map agree on where the function is exactly if its first and its last
body are entered at one place, as they are if there is only one.
-/

namespace CompiledCode

namespace ModuleCode

/-- The block of the best tier that is available. -/
def bestBlock (code : ModuleCode) : Block := code.tier2.block?.getD code.tier1

/-- Whether calls are led to the last bodies that the best tier has for its functions. -/
structure LedToBest (code : ModuleCode) : Prop where
  /-- There are tiering slots. -/
  mode : code.dispatch.mode = .tiering
  /-- There is one for each function. -/
  complete : code.dispatch.Complete
  /-- The best tier maps functions to their bodies. -/
  primary : code.bestBlock.kind.primaryRange = .function
  /-- The map of the best tier is that of its tables. -/
  coverage : code.bestBlock.coverage =
    Coverage.ofTables code.bestBlock.kind code.bestBlock.tables
  /-- No function of the best tier is left out of its map. -/
  full : code.bestBlock.coverage.requireFull = .ok ()
  /-- The slots lead to the last bodies. -/
  slots : ∀ func body, DispatchTables.bodyOf? code.bestBlock.tables.ranges func = some body →
    code.dispatch.tiering[func]? = some (code.bestBlock.addressOf body.tierEntry)

variable {start code after : ModuleCode} {calls : List ModuleCall} {call : ModuleCall}

/-- A tier maps functions to their bodies. -/
theorem primaryRange_of_tier? {kind : BlockKind} (h : kind.tier?.isSome = true) :
    kind.primaryRange = .function := by
  cases kind <;> trivial

/-- A module in tiering mode starts out with calls led to the last bodies of its first tier. -/
theorem CreatedFrom.ledToBest {settings : Settings} {symbols : SymbolTable} {parts : ModuleParts}
    (h : CreatedFrom settings symbols parts code) (hmode : settings.mode = .tiering)
    (hcoverage : parts.tier1.coverage = Coverage.ofTables parts.tier1.kind parts.tier1.tables) :
    code.LedToBest := by
  obtain ⟨hmode', hcomplete, hslots⟩ := DispatchTables.tiering_of_ofBlocks h.ofBlocks_eq
  obtain ⟨-, -, ⟨_, _, htier1⟩⟩ := h.blocks
  have hbest : code.bestBlock = code.tier1 := by rw [bestBlock, h.fresh.1]; rfl
  constructor
  · exact hmode'.trans hmode
  · exact hcomplete
  · rw [hbest, htier1]
    exact primaryRange_of_tier? h.tierKind
  · rw [hbest, htier1]
    exact hcoverage
  · rw [hbest, htier1]
    exact h.tier1.full
  · rw [hbest]
    exact hslots hmode

/-- Calls lead where they led as long as the best tier stays, and jit entries alone change. -/
theorem LedToBest.keep (h : code.LedToBest) (hsame : code.SameProviders after)
    (hjit : ∃ jit, jit.length = code.dispatch.jit.length ∧ after.dispatch = { code.dispatch with jit }) :
    after.LedToBest := by
  obtain ⟨jit, hlength, hdispatch⟩ := hjit
  have hbest : after.bestBlock = code.bestBlock := by
    rw [bestBlock, bestBlock, hsame.tier1, hsame.tier2]
  have hslots : code.dispatch.SameSlots after.dispatch := hdispatch ▸ ⟨rfl, hlength, rfl⟩
  constructor
  · exact hslots.mode.trans h.mode
  · exact hslots.complete h.complete
  · exact hbest ▸ h.primary
  · exact hbest ▸ h.coverage
  · exact hbest ▸ h.full
  · rw [hbest, hdispatch]
    exact h.slots

/-- Once a tier is published, calls are led to the last bodies that it has. -/
theorem LedToBest.tier (h : code.LedToBest) {compiler : StubCompiler} {compiled : CompiledBlock}
    {tier2 : Block} {made : Option StubBatch} (hkind : compiled.kind = .optimizedTier)
    (hadds : code.AddsTier compiler compiled tier2 made after) : after.LedToBest := by
  have hpublished : after.tier2 = .published tier2 := (congrArg ModuleCode.tier2 hadds.content :)
  have hbest : after.bestBlock = tier2 := by rw [bestBlock, hpublished]; rfl
  constructor
  · exact hadds.ledTo.mode.trans h.mode
  · exact hadds.ledTo.toSameSlots.complete h.complete
  · rw [hbest, hadds.kind, hkind]
    rfl
  · rw [hbest, hadds.kind, hadds.tables]
    exact hadds.covers.coverage
  · rw [hbest]
    exact hadds.covers.full
  · rw [hbest]
    exact fun func body hbody => hadds.ledTo.tiering_eq h.mode h.complete hbody

/-- Calls are led to the last bodies of the best tier whatever a call of the module comes to. -/
theorem LedToBest.outcome (h : code.LedToBest) (houtcome : call.Outcome code after) :
    after.LedToBest := by
  cases houtcome with
  | notes hmarked =>
    have hsame := hmarked.sameProviders
    obtain ⟨notes, tier2, -, hcontent⟩ := hmarked
    exact h.keep hsame ⟨_, rfl, (congrArg ModuleCode.dispatch hcontent :)⟩
  | stub hadds => exact h.keep hadds.sameProviders hadds.offered.others
  | tier _ _ hkind hadds => exact h.tier hkind hadds
  | offer hoffered hcontent => exact h.keep (sameProviders_of_dispatch hcontent) hoffered.others

/-- Calls are led to the last bodies of the best tier all along a run. -/
theorem LedToBest.runs (h : start.LedToBest) (hrun : Runs calls start code) : code.LedToBest := by
  induction hrun with
  | nil => exact h
  | snoc _ hturn ih => exact (ih h).outcome hturn.outcome

/-- Where calls are led to last bodies, each function of the best tier has a first and a last body, which
its map and its tiering slot have. -/
theorem LedToBest.exists_bodies (h : code.LedToBest)
    (hindexable : code.bestBlock.tables.ranges.length ≤ Coverage.reservedIndex) {func : Nat}
    (hin : code.bestBlock.tables.funcs.contains func = true) :
    ∃ first last, code.bestBlock.rangeOfFunc? func = some first ∧
      code.bestBlock.tables.ranges.find? (Coverage.matching .function func) = some first ∧
      code.bestBlock.tables.ranges.reverse.find? (Coverage.matching .function func) = some last ∧
      code.dispatch.tiering[func]? = some (code.bestBlock.addressOf last.tierEntry) := by
  have hfull := h.full
  rw [h.coverage] at hfull
  have hcovered := Coverage.hasRange_of_requireFull hindexable hfull hin
  have hmap := (Block.rangeOfFunc?_eq h.coverage hindexable func).trans (if_pos hin)
  rw [h.primary] at hcovered hmap
  obtain ⟨body, hbody, hmatching⟩ := List.any_eq_true.mp hcovered
  obtain ⟨first, hfirst⟩ : ∃ first,
      code.bestBlock.tables.ranges.find? (Coverage.matching .function func) = some first :=
    Option.isSome_iff_exists.mp (List.find?_isSome.mpr ⟨body, hbody, hmatching⟩)
  rw [Bool.and_eq_true, decide_eq_true_eq, decide_eq_true_eq] at hmatching
  obtain ⟨last, hlast⟩ := DispatchTables.exists_bodyOf?_eq_some hbody hmatching.1 hmatching.2
  exact ⟨first, last, hmap.trans hfirst, hfirst, hlast, h.slots func last hlast⟩

/-- Calls lead to the last body that the best tier has for a function, while its map has the first one,
which need not be the same. In a module in tiering mode whose first tier was assembled, whatever calls
have been made on it, the tiering slot and the map agree on where a function of the best tier is exactly
if the first and the last of its bodies are entered at one place. All this is as long as there is an
index for every code range. -/
theorem calls_lead_to_last_bodies {kind : BlockKind} {segment : Segment} {inUse first stop : Nat}
    {tables : CodeTables} {settings : Settings} {symbols : SymbolTable} {parts : ModuleParts}
    {engine created : Engine}
    (hassemble : Block.assemble kind segment inUse first stop tables = .ok parts.tier1)
    (hcreate : create settings symbols parts engine = .ok start created)
    (hmode : settings.mode = .tiering) (hrun : Runs calls start code)
    (hindexable : code.bestBlock.tables.ranges.length ≤ Coverage.reservedIndex) (func : Nat)
    (hin : code.bestBlock.tables.funcs.contains func = true) :
    ∃ first last, code.bestBlock.rangeOfFunc? func = some first ∧
      code.bestBlock.tables.ranges.find? (Coverage.matching .function func) = some first ∧
      code.bestBlock.tables.ranges.reverse.find? (Coverage.matching .function func) = some last ∧
      code.dispatch.tiering[func]? = some (code.bestBlock.addressOf last.tierEntry) ∧
      (code.dispatch.tiering[func]? = some (code.bestBlock.addressOf first.tierEntry) ↔
        first.tierEntry = last.tierEntry) := by
  obtain ⟨hblock, -⟩ := Block.assemble_eq_ok hassemble
  have hcreated : start.LedToBest :=
    ((create_content ..).of_ok hcreate).ledToBest hmode (by rw [hblock])
  have hled := hcreated.runs hrun
  obtain ⟨first, last, hmap, hfirst, hlast, hslot⟩ := hled.exists_bodies hindexable hin
  refine ⟨first, last, hmap, hfirst, hlast, hslot, ?_⟩
  rw [hslot, Option.some_inj, Block.addressOf, Block.addressOf, Nat.add_left_cancel_iff]
  exact eq_comm

end ModuleCode

/-- Code that has two bodies of its only function. -/
def CompiledBlock.twoBodies (kind : BlockKind) : CompiledBlock where
  kind := kind
  code := List.replicate 32 0x90
  tables :=
    { funcs := { stop := 1 }
      ranges :=
        [{ kind := .function, func := some 0, start := 0, stop := 16, tierEntry := 0 },
          { kind := .function, func := some 0, start := 16, stop := 32, tierEntry := 16 }]
      exports := [{ func := 0, type := 0, eagerEntry := none }] }

/-- The pieces of a module with two bodies of its only function. -/
def ModuleParts.twoBodies : ModuleParts where
  sharedStubs := ModuleParts.oneFunction.sharedStubs
  tier1 :=
    { kind := .baselineTier
      segment := { base := 0x1000, capacity := 0x1000 }
      start := 0, stop := 32
      coverage := { slots := [some 0] }
      tables := (CompiledBlock.twoBodies .baselineTier).tables }

/-- The first tier of a module with two bodies of its only function is assembled. -/
theorem ModuleParts.assemble_twoBodies :
    Block.assemble .baselineTier { base := 0x1000, capacity := 0x1000 } 32 0 32
      (CompiledBlock.twoBodies .baselineTier).tables = .ok twoBodies.tier1 := by
  decide +kernel

namespace ModuleCode

/-- The slot of a function with two bodies leads to the other one than its map has as soon as the module
is created. -/
theorem tiering_slot_departs_from_map :
    ∃ start created first,
      Block.assemble .baselineTier { base := 0x1000, capacity := 0x1000 } 32 0 32
        (CompiledBlock.twoBodies .baselineTier).tables = .ok ModuleParts.twoBodies.tier1 ∧
      create { mode := .tiering } .empty .twoBodies {} = .ok start created ∧
      start.tier2 = .absent ∧ start.tier1.tables.funcs.contains 0 = true ∧
      start.tier1.rangeOfFunc? 0 = some first ∧
      start.dispatch.tiering[0]? ≠ some (start.tier1.addressOf first.tierEntry) := by
  have hends : (create { mode := .tiering } .empty .twoBodies).succeeds {} (fun start _ =>
      start.tier2 = .absent && start.tier1.tables.funcs.contains 0 &&
        start.tier1.rangeOfFunc? 0 = ModuleParts.twoBodies.tier1.tables.ranges[0]? &&
        start.dispatch.tiering[0]? ≠ some (start.tier1.addressOf 0)) = true := by
    decide +kernel
  obtain ⟨start, created, hcreate, htest⟩ := Op.exists_of_succeeds hends
  simp only [Bool.and_eq_true, decide_eq_true_eq] at htest
  obtain ⟨⟨⟨habsent, hcovers⟩, hfirst⟩, hslot⟩ := htest
  exact ⟨start, created, _, ModuleParts.assemble_twoBodies, hcreate, habsent, hcovers, hfirst, hslot⟩

/-- In an optimized tier with two bodies of a function, too, the slot has the last one and the map the
first. -/
theorem calls_lead_to_last_bodies_once_installed :
    ∃ (layout : StubLayout) (start : ModuleCode) (created : Engine) (code : ModuleCode),
      create { mode := .tiering } .empty .twoBodies {} = .ok start created ∧
      Runs [.install layout.compiler {} (.twoBodies .optimizedTier)] start code ∧
      code.hasOptimized = true ∧ code.bestBlock.tables.funcs.contains 0 = true ∧
      ∃ first last : CodeRange, code.bestBlock.rangeOfFunc? 0 = some first ∧
        code.dispatch.tiering[0]? = some (code.bestBlock.addressOf last.tierEntry) ∧
        code.dispatch.tiering[0]? ≠ some (code.bestBlock.addressOf first.tierEntry) := by
  let layout : StubLayout := {}
  let calls : List ModuleCall := [.install layout.compiler {} (.twoBodies .optimizedTier)]
  have hends : (create { mode := .tiering } .empty .twoBodies).succeeds {} (fun code engine =>
      (calls.forM ModuleCall.run).succeeds { engine, code } fun _ t =>
        t.code.hasOptimized &&
          t.code.bestBlock.tables = (CompiledBlock.twoBodies .optimizedTier).tables) = true := by
    decide +kernel
  obtain ⟨start, created, t, hcreate, hrun, htest⟩ := exists_run hends
  simp only [Bool.and_eq_true, decide_eq_true_eq] at htest
  obtain ⟨hinstalled, htables⟩ := htest
  have hcovers : t.code.bestBlock.tables.funcs.contains 0 = true := by rw [htables]; decide
  obtain ⟨first, last, hmap, hfirst, hlast, hslot, hagree⟩ :=
    calls_lead_to_last_bodies ModuleParts.assemble_twoBodies hcreate rfl hrun
      (by rw [htables]; decide) 0 hcovers
  rw [htables] at hfirst hlast
  refine ⟨layout, start, created, t.code, hcreate, hrun, hinstalled, hcovers, first, last, hmap, hslot,
    fun hsame => ?_⟩
  obtain rfl : _ = first := Option.some.inj hfirst
  obtain rfl : _ = last := Option.some.inj hlast
  exact absurd (hagree.mp hsame) (by decide)

end ModuleCode

end CompiledCode

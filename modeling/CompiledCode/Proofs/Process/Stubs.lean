import CompiledCode.Proofs.Coverage
import CompiledCode.Proofs.ModuleCode.Stubs
import CompiledCode.Proofs.Process.Blocks

/-!
# Making entry stubs in step

Stubs are put where nothing was claimed of their segment before, so that they lie apart from all
other blocks wherever the segment is. A failure before their block is added leaves the blocks as
they were, with some memory more or a claim that is never given back.

Protection is changed by the page. Stubs of which a block can be assembled are thus placed, or fail to
be, if each segment is in use up to the end of a page.
-/

namespace CompiledCode

/-- Binding a block that waits gives it a serial number that no block of a module has. -/
theorem Engine.bindBlock_inStep {engine : Engine} {since : Memory} {block : Block} {placed : List Block}
    {codes : List ModuleCode} (h : Process.InStep since { engine, placed := block :: placed, codes })
    (owner : Nat) :
    (bindBlock owner block).Ensures engine
      (fun bound e => Process.InStep since { engine := e, placed := bound :: placed, codes } ∧
        bound.serial = engine.nextSerial ∧ e.nextSerial = bound.serial + 1 ∧
        (∀ compiled plan, engine.memory.Bears block compiled plan → e.memory.Bears bound compiled plan) ∧
        ∀ piece, engine.memory.Shows block piece → e.memory.Shows bound piece)
      (fun fault e => fault.ofMap = false ∧ ¬ block.Bindable ∧ e = engine) := by
  refine (bindBlock_ensures owner block engine).mono (fun bound e hbound => ?_) (fun _ _ h => h)
  obtain ⟨rfl, rfl, -⟩ := hbound
  exact ⟨h.bind _, rfl, rfl, fun _ _ hbears => { hbears with }, fun _ hshows => { hshows with }⟩

/-- Whether room for some bytes has been claimed where the part of a segment ends that was in use. -/
structure Segment.Claimed (segment : Segment) (before claimed : Memory) (offset needed : Nat) : Prop where
  keeps : before.Keeps claimed
  offset_eq : offset = before.inUse segment.base
  inUse : claimed.inUse segment.base = offset + needed
  room : offset + needed ≤ segment.capacity

/-- A block of stubs that fill room that was claimed can be bound. It is hosted, shares no address with what
was hosted before, and shows the stubs. -/
theorem Segment.Claimed.hosts {segment : Segment} {before claimed installed made : Memory}
    {offset needed inUse : Nat} {stubs : CompiledStubs} {symbols : SymbolTable} {trapCode : Option Nat}
    {block : Block} (h : segment.Claimed before claimed offset needed) (hsound : before.Sound)
    (hbacks : before.Backs segment) (hlength : stubs.code.length ≤ needed)
    (hkeeps : before.Keeps installed)
    (hstopped : (stubs.plan.apply (segment.base + offset) symbols (trapCode.map UInt64.ofNat)
      stubs.code).stopped = none)
    (hfilled : Filled claimed installed (segment.base + offset)
      (stubs.plan.apply (segment.base + offset) symbols (trapCode.map UInt64.ofNat) stubs.code).code)
    (hassemble : Block.assemble .lazyStubs segment inUse offset (offset + stubs.code.length)
      ({ stubs.tables with funcs := {} }.shift offset) = .ok block)
    (hclaims : made.claims = installed.claims) :
    block.Bindable ∧ made.Hosts block ∧ (∀ other, before.Hosts other → block.ClearOf other) ∧
      made.Shows block (.ofStubs stubs symbols trapCode) := by
  obtain ⟨hblock, -, -⟩ := Block.assemble_eq_ok hassemble
  have hsegment : block.segment = segment := by rw [hblock]
  have hstart : block.start = offset := by rw [hblock]
  have hstop : block.stop = offset + stubs.code.length := by rw [hblock]
  have hbase : block.base = segment.base + offset := by rw [Block.base, hsegment, hstart]
  have hlen : block.length = stubs.code.length := by
    rw [Block.length, hstop, hstart, Nat.add_sub_cancel_left]
  have hend : block.stop ≤ offset + needed := hstop ▸ Nat.add_le_add_left hlength offset
  have hroom : block.stop ≤ block.segment.capacity := hsegment ▸ Nat.le_trans hend h.room
  have hinUse : block.stop ≤ made.inUse block.segment.base := by
    rw [Memory.inUse_of_claims hclaims, hfilled.inUse, hsegment, h.inUse]
    exact hend
  have hread := hfilled.read
  have hsealed := hfilled.executable
  rw [PatchPlan.length_apply] at hread hsealed
  rw [← hsegment] at hbacks
  refine ⟨?_, (hbacks.keeps (hkeeps.of_claims hclaims)).hosts hroom hinUse ?_, fun other hother => ?_,
    hlen, ?_⟩
  · rw [hblock]
    exact ⟨rfl, Coverage.requireFull_ofTables_of_empty rfl _⟩
  · rw [hbase, hlen]
    exact hsealed.of_log (Memory.log_of_claims hclaims)
  · refine hother.clearOf_of_unclaimed hsound hbacks (Nat.le_of_eq ?_) hroom
    rw [hsegment, hstart, h.offset_eq]
  · rw [hbase, hlen, Memory.read_congr fun i _ => congrFun (Memory.byteAt_of_claims hclaims) _, hread]
    rw [Patched.complete]
    simp only [Piece.ofStubs, hstopped]

namespace Running

/-- Whether nothing has changed that has to be in step. -/
structure SameIndexes (s t : Running) : Prop where
  engine : t.engine = s.engine
  blocks : t.code.blocks = s.code.blocks
  segments : t.code.lazySegments = s.code.lazySegments
  blockMap : t.code.blockMap = s.code.blockMap

variable {s t : Running} {since : Memory} {placed : List Block} {others : List ModuleCode} {compiler : StubCompiler}
  {tier block : Block} {requests : List StubRequest}

theorem SameIndexes.refl (s : Running) : s.SameIndexes s := ⟨rfl, rfl, rfl, rfl⟩

/-- Whatever else changes, the module stays in step. -/
theorem InStep.congr (h : s.InStep since placed others) (hsame : s.SameIndexes t) : t.InStep since placed others := by
  obtain ⟨engine, code⟩ := t
  obtain ⟨rfl, hblocks, hsegments, hmap⟩ := hsame
  refine Process.InStep.shrink h ?_ hsegments ?_ ?_
  · rw [hblocks]
  · rw [hblocks, hmap]
    exact (List.forall_mem_cons.mp h.maps).1
  · rw [hblocks]
    exact h.registry

/-- Other entry stubs in the list of those made leave the module in step. -/
theorem InStep.withExports (h : s.InStep since placed others) (exports : List LazyExport) :
    InStep { s with code := s.code.withExports exports } since placed others :=
  h.congr ⟨rfl, rfl, rfl, rfl⟩

/-- In step still, with the blocks that the module had before. -/
def Stays (s t : Running) (since : Memory) (placed : List Block) (others : List ModuleCode) : Prop :=
  t.InStep since placed others ∧ t.code.blocks = s.code.blocks

/-- Whether each segment for entry stubs is in use up to the end of a page. -/
def Paged (s : Running) : Prop :=
  ∀ segment ∈ s.code.lazySegments, Page.aligned (segment.length s.engine.memory) = true

/-- An install that begins or is refused changes no index. -/
theorem beginInstall_sameIndexes (kind : BlockKind) :
    (beginInstall kind).Ensures s (fun _ t => s.SameIndexes t)
      (fun fault t => fault.ofMap = false ∧ s.SameIndexes t) := by
  exact beginInstall_ensures_of (fun _ h => ⟨h, .refl s⟩) (fun _ => ⟨rfl, .refl s⟩)
    fun _ _ _ => ⟨rfl, rfl, rfl, rfl⟩

/-- A call of the stub compiler changes no index. -/
theorem callCompiler_sameIndexes {t : Running} (ht : s.SameIndexes t) (sawOptimized : Bool)
    (install : Option (Option Failure)) :
    (callCompiler compiler tier requests sawOptimized install).Ensures t
      (fun _ u => s.SameIndexes u) (fun fault u => fault.ofMap = false ∧ s.SameIndexes u) := by
  have hnoted (call : StubCall) : s.SameIndexes { t with code := t.code.withCall call } :=
    ⟨ht.engine, ht.blocks, ht.segments, ht.blockMap⟩
  refine (callCompiler_ensures _ _).mono (fun _ u hu => ?_) (fun fault u hu => ?_)
  · obtain ⟨call, -, rfl⟩ := hu
    exact hnoted call
  · obtain ⟨hviolation, call, -, rfl⟩ := hu
    exact ⟨Fault.ofMap_of_not_isViolation hviolation, hnoted call⟩

/-- Compiling stubs changes no index, even if the compiler asks for an install itself. -/
theorem compileStubs_sameIndexes :
    (compileStubs compiler tier requests).Ensures s (fun _ t => s.SameIndexes t)
      (fun fault t => fault.ofMap = false ∧ s.SameIndexes t) := by
  refine compileStubs_ensures (fun _ _ h => ⟨h, .refl s⟩) fun _ _ tier2 _ => ?_
  have hsame : s.SameIndexes { s with code := s.code.withTier2 tier2 } := ⟨rfl, rfl, rfl, rfl⟩
  exact callCompiler_sameIndexes hsame _ _

/-- Whatever is done to the dispatch tables, no index changes. -/
theorem onDispatch_sameIndexes {α : Type} {op : Op DispatchTables α} {onValue : α → DispatchTables → Prop}
    {onFault : Fault → DispatchTables → Prop} (h : op.Ensures s.code.dispatch onValue onFault) :
    (onDispatch op).Ensures s (fun _ t => s.SameIndexes t)
      (fun fault t => onFault fault t.code.dispatch ∧ s.SameIndexes t) :=
  (Op.ensures_focus _ _ op).mpr (h.mono (fun _ _ _ => ⟨rfl, rfl, rfl, rfl⟩)
    (fun _ _ hfault => ⟨hfault, rfl, rfl, rfl, rfl⟩))

/-- One more segment for stubs changes nothing if it has its memory. -/
theorem InStep.withSegment {segment : Segment} (h : s.InStep since placed others)
    (hbacks : s.engine.memory.Backs segment) :
    InStep { s with code := s.code.withSegment segment } since placed others := by
  obtain ⟨hown, hothers⟩ := List.forall_mem_cons.mp h.backed
  have hbacked : ∀ other ∈ s.code.lazySegments ++ [segment], s.engine.memory.Backs other :=
    List.forall_mem_append.mpr ⟨hown, List.forall_mem_singleton.mpr hbacks⟩
  exact
    { h with
      backed := List.forall_mem_cons.mpr ⟨hbacked, hothers⟩
      maps := List.forall_mem_cons.mpr (List.forall_mem_cons.mp h.maps) }

/-- A table gets memory in step, whether there is enough of it or not. -/
theorem grow_inStep (h : s.InStep since placed others) (bytes : Nat) :
    (onMemory (Memory.grow bytes)).Ensures s
      (fun _ t => t.InStep since placed others ∧ t.code = s.code)
      (fun fault t => fault.isViolation = false ∧ t.InStep since placed others ∧ t.code = s.code) :=
  (ensures_onMemory _).mpr ((Memory.grow_claims _).mono
    (fun _ _ hgrown => ⟨h.withMemory (h.sound.keeps hgrown), rfl⟩)
    (fun _ _ hfault => ⟨hfault.1, h.withMemory (h.sound.keeps hfault.2), rfl⟩))

/-- A fresh segment for stubs has its memory and all of its room, or nothing has changed. -/
theorem reserve_inStep (h : s.InStep since placed others) (bytes : Nat) :
    (Op.during .allocatingStubSegment (onMemory (Segment.reserve bytes))).Ensures s
      (fun segment t => s.Stays t since placed others ∧ t.engine.memory.Backs segment ∧
        bytes ≤ segment.capacity ∧ segment.length t.engine.memory = 0)
      (fun fault t => fault.isViolation = false ∧ s.Stays t since placed others) := by
  have hreserve : (onMemory (Segment.reserve bytes)).Ensures s
      (fun segment t => s.Stays t since placed others ∧ t.engine.memory.Backs segment ∧
        bytes ≤ segment.capacity ∧ segment.length t.engine.memory = 0)
      (fun fault t => fault.isViolation = false ∧ s.Stays t since placed others) :=
    (ensures_onMemory _).mpr ((Segment.reserve_ensures h.sound bytes).mono
      (fun _ _ hafter => ⟨⟨h.withMemory hafter.1, rfl⟩, hafter.2⟩)
      (fun _ _ hfault => ⟨hfault.1, h.withMemory hfault.2, rfl⟩))
  exact hreserve.during_of fun _ _ hfault => hfault

/-- The segment for stubs has its memory, and room for them, be it the last one or a fresh one. -/
theorem stubSegment_inStep (h : s.InStep since placed others) (needed : Nat) :
    (stubSegment needed).Ensures s
      (fun segment t => s.Stays t since placed others ∧ t.engine.memory.Backs segment ∧
        segment.fits t.engine.memory needed = true ∧
        (s.Paged → Page.aligned (segment.length t.engine.memory) = true))
      (fun fault t => fault.isViolation = false ∧ s.Stays t since placed others) := by
  refine stubSegment_ensures (fun segment hlast hfits => ?_) (fun _ => ⟨rfl, h, rfl⟩)
    (fun bytes => (grow_inStep h bytes).mono (fun _ _ ht => ht)
      (fun _ _ hfault => ⟨hfault.1, hfault.2.1, by rw [hfault.2.2]⟩)) fun t bytes ht hbytes => ?_
  · have hin := List.mem_of_getLast? hlast
    exact ⟨⟨h, rfl⟩, (List.forall_mem_cons.mp h.backed).1 _ hin, hfits, fun hpaged => hpaged _ hin⟩
  · obtain ⟨hgrown, hcode⟩ := ht
    have hsame : t.code.blocks = s.code.blocks := by rw [hcode]
    refine (reserve_inStep hgrown bytes).mono (fun segment u hu => ?_)
      (fun _ _ hfault => ⟨hfault.1, hfault.2.1, hfault.2.2.trans hsame⟩)
    obtain ⟨⟨hu, hblocks⟩, hbacks, hroom, hlength⟩ := hu
    refine ⟨⟨hu.withSegment hbacks, hblocks.trans hsame⟩, hbacks, ?_, fun _ => ?_⟩
    · rw [Segment.fits, hlength, Bool.and_eq_true, decide_eq_true_eq, decide_eq_true_eq]
      exact ⟨Nat.le_trans hbytes hroom, Nat.zero_le _⟩
    · rw [hlength]
      rfl

/-- Stubs that are put where room is claimed for them are in step, in a block of their own, or the blocks
are as they were. Where a block can be assembled of them and the room starts on a page, that fails if at all
unless an offset overflows. -/
theorem putStubs_inStep (h : s.InStep since placed others) {segment : Segment}
    (hbacks : s.engine.memory.Backs segment) {claimed : Memory} {offset needed : Nat}
    (hclaimed : segment.Claimed s.engine.memory claimed offset needed) {stubs : CompiledStubs}
    (hneeded : Page.roundUp stubs.code.length = .ok needed) (entries : List StubEntries) :
    (putStubs stubs entries segment offset).Ensures
      { s with engine := { s.engine with memory := claimed } }
      (fun _ t => t.InStep since placed others ∧ ∃ block, t.code.blocks = s.code.blocks ++ [block] ∧
        t.engine.memory.Shows block (.ofStubs stubs s.code.symbols s.code.trapCode))
      (fun fault t => fault.ofMap = false ∧
        (Page.aligned offset = true → stubs.Assembles → fault.isViolation = true →
          stubs.tables.overflows offset = true) ∧
        s.Stays t since placed others) := by
  have hkeeps := hclaimed.keeps
  have hlength : stubs.code.length ≤ needed := (Page.roundUp_eq_ok hneeded).2.1
  -- A fault that turns out to be a failure is no violation.
  have hcalm {fault : Fault} {condition : Prop} (h : fault.isViolation = false)
      (hviolation : fault.isViolation = true) : condition :=
    absurd (h.symm.trans hviolation) Bool.false_ne_true
  let patched := stubs.plan.apply (segment.base + offset) s.code.symbols
    (s.code.trapCode.map UInt64.ofNat) stubs.code
  refine putStubs_ensures (motive := fun t => ∃ installed,
      t = { s with engine := { s.engine with memory := installed } } ∧
      s.engine.memory.Keeps installed ∧ patched.stopped = none ∧
      Segment.Filled claimed installed (segment.base + offset) patched.code) ?_ ?_ ?_ ?_
  · rw [ensures_onMemory]
    refine (Segment.install_ensures hkeeps (hbacks.keeps hkeeps) offset stubs.code
        (fun pages _ hroom => h.sound.unclaimed hbacks hclaimed.offset_eq hroom) ..).mono
      (fun _ installed hinstalled => ⟨installed, rfl, hinstalled⟩)
      (fun fault m hfault => ⟨hfault.1, fun haligned _ => hcalm (hfault.2.1 fun pages hpages => ?_),
        h.withMemory hfault.2.2, rfl⟩)
    obtain rfl := Except.ok.inj (hneeded.symm.trans hpages)
    exact ⟨haligned, hclaimed.room, Nat.le_of_eq hclaimed.inUse.symm⟩
  · rintro _ ⟨installed, rfl, hwritten, -⟩ -
    exact ⟨rfl, fun _ _ => nofun, h.withMemory hwritten, rfl⟩
  · rintro _ ⟨installed, rfl, hwritten, -⟩ hoverflows
    exact ⟨rfl, fun _ _ _ => hoverflows, h.withMemory hwritten, rfl⟩
  rintro _ ⟨installed, rfl, hwritten, hstopped, hfilled⟩
  have hinstalled : offset + stubs.code.length ≤ segment.length installed := by
    rw [Segment.length, hfilled.inUse, hclaimed.inUse]
    exact Nat.add_le_add_left hlength offset
  rw [ensures_onMemory]
  refine (Block.make_ensures ..).mono (fun block made hmade => ?_)
    (fun fault m hfault => ⟨hfault.1, fun _ hassembles => hcalm ?_,
      h.withMemory (hwritten.of_claims hfault.2.2), rfl⟩)
  case refine_2 =>
    obtain ⟨block, hassemble⟩ := hassembles.exists_eq_ok hinstalled
    exact hfault.2.1 block hassemble
  obtain ⟨hassemble, hclaims⟩ := hmade
  obtain ⟨hbindable, hhosts, hclear, hshows⟩ :=
    hclaimed.hosts h.sound hbacks hlength hwritten hstopped hfilled hassemble hclaims
  have hplaced := Process.InStep.place h (hwritten.of_claims hclaims) hhosts hclear
  rw [ensures_onEngine]
  refine (Engine.bindBlock_inStep hplaced _).mono (fun bound e hbound => ?_)
    (fun fault e hfault => absurd hbindable hfault.2.1)
  obtain ⟨hbound, hserial, hnext, -, hsame⟩ := hbound
  have hbound : InStep { engine := e, code := s.code } since (bound :: placed) others := hbound
  refine (addBlock_inStep hbound.now (hplaced.serial_ne hserial) ?_).mono (fun index u hu => ?_)
    (fun fault u hu => ?_)
  · exact Nat.lt_of_lt_of_eq (Nat.lt_succ_self _) hnext.symm
  · obtain ⟨hu, hadded, -⟩ := hu
    refine ⟨hu.before hbound.kept, bound, hadded, ?_⟩
    exact (hsame _ hshows).keeps (hbound.hosted bound List.mem_cons_self) hu.kept
  · exact ⟨Fault.ofMap_of_not_isViolation hu.1, fun _ _ => hcalm hu.1,
      (hu.2.1.before hbound.kept).discard, hu.2.2⟩

/-- Stubs that are placed are in step, in a block of their own, or the blocks are as they were. -/
theorem placeStubs_inStep (h : s.InStep since placed others) (stubs : CompiledStubs) :
    (placeStubs stubs requests).Ensures s
      (fun _ t => t.InStep since placed others ∧ ∃ block, t.code.blocks = s.code.blocks ++ [block] ∧
        t.engine.memory.Shows block (.ofStubs stubs s.code.symbols s.code.trapCode))
      (fun fault t => fault.ofMap = false ∧ s.Stays t since placed others) := by
  refine placeStubs_ensures (fun _ => ⟨rfl, h, rfl⟩) fun entries needed _ hneeded => ?_
  refine ((stubSegment_inStep h needed).and (stubSegment_content needed)).mono (fun segment t ht => ?_)
    (fun _ _ h => ⟨Fault.ofMap_of_not_isViolation h.1.1, h.1.2⟩)
  obtain ⟨⟨⟨ht, hblocks⟩, hbacks, hfits, -⟩, hcontent⟩ := ht
  have hsymbols : t.code.symbols = s.code.symbols := (congrArg ModuleCode.symbols hcontent :)
  have htrap : t.code.trapCode = s.code.trapCode := (congrArg ModuleCode.trapCode hcontent :)
  rw [← hsymbols, ← htrap, ← hblocks, ensures_onMemory]
  refine (Segment.claim_ensures ht.sound needed).mono (fun offset claimed hclaimed => ?_)
    (fun fault m hfault => absurd hfits (Bool.eq_false_iff.mp hfault.2.1))
  obtain ⟨hkeeps, hoffset, hinUse, hroom⟩ := hclaimed
  refine (putStubs_inStep ht hbacks ⟨hkeeps, hoffset, hinUse, hroom⟩ hneeded entries).mono
    (fun _ _ hu => hu) (fun fault u hu => ⟨hu.1, hu.2.2.1, hu.2.2.2.trans hblocks⟩)

/-- Stubs that are made are in step, or the blocks are as they were. -/
theorem createStubs_inStep (h : s.InStep since placed others) :
    (createStubs compiler requests tier).Ensures s (fun _ t => t.InStep since placed others)
      (fun fault t => fault.ofMap = false ∧ s.Stays t since placed others) := by
  refine (Op.Ensures.during_of compileStubs_sameIndexes fun _ _ h => h).bind (fun stubs t ht => ?_)
    (fun fault t ht => ⟨ht.1, h.congr ht.2, ht.2.blocks⟩)
  refine (placeStubs_inStep (h.congr ht) stubs).mono (fun _ _ h => h.1) (fun fault u hu => ?_)
  exact ⟨hu.1, hu.2.1, hu.2.2.trans ht.blocks⟩

/-- Offering a jit entry changes no index. -/
theorem offerJitEntry_sameIndexes (func : Nat) (stubs : Block) (jit : Option Nat) :
    (offerJitEntry func stubs jit).Ensures s (fun _ t => s.SameIndexes t)
      (fun fault t => fault.ofMap = false ∧ s.SameIndexes t) := by
  cases jit with
  | none => exact (Op.ensures_pure _).mpr (.refl s)
  | some jit =>
    rw [offerJitEntry, Op.ensures_bind, Op.ensures_ofChecked]
    split
    · exact (onDispatch_sameIndexes (DispatchTables.setJitEntryIfEmpty_ensures ..)).bind
        (fun _ t ht => (Op.ensures_pure _).mpr ht) (fun _ _ hfault => ⟨hfault.1.2, hfault.2⟩)
    · rename_i violation hviolation
      exact ⟨Block.ofMap_of_rangeAt hviolation, .refl s⟩

/-- The first stub of a function is made in step. -/
theorem createStub_inStep (h : s.InStep since placed others) (exportIndex : Nat) (entry : FuncExport) :
    (createStub compiler exportIndex entry tier).Ensures s (fun _ t => t.InStep since placed others)
      (fun fault t => fault.ofMap = false ∧ t.InStep since placed others) := by
  refine createStub_ensures (fun _ _ => ⟨rfl, h⟩)
    (fun bytes => (grow_inStep h bytes).mono (fun _ _ ht => ht.1)
      (fun _ _ hfault => ⟨Fault.ofMap_of_not_isViolation hfault.1, hfault.2.1⟩))
    (fun _ _ ht => ⟨rfl, ht⟩) fun t position address ht _ _ => ?_
  refine (createStubs_inStep ht).mono (fun result u hu => ?_) (fun _ _ h => ⟨h.1, h.2.1⟩)
  refine fileStub_ensures (fun _ => ⟨rfl, hu⟩) fun found stubs _ _ =>
    (offerJitEntry_sameIndexes _ _ _).mono (fun _ v hv => ?_)
      (fun fault v hv => ⟨hv.1, (hu.withExports _).congr hv.2⟩)
  have hfiled := (hu.withExports _).congr hv
  exact ⟨fun _ _ => hfiled, fun violation hviolation => ⟨Block.ofMap_of_rangeAt hviolation, hfiled⟩⟩

end Running

end CompiledCode

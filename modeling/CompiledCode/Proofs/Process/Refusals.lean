import CompiledCode.Proofs.Process.Calls
import CompiledCode.Proofs.Refusals

/-!
# Creating code fails on refusals alone

Blocks that wait to become part of a module lie apart from all others, so that nothing but a lack of
room keeps one of them from being added. Parts that fit become the code of a module unless something
is refused.
-/

namespace CompiledCode

namespace RegionMap

variable {ρ : Type} [Region ρ] {map : RegionMap ρ}

/-- With room for it, nothing but a violation keeps a region from being registered. -/
theorem insert_with_room (region : ρ) :
    (RegionMap.insert region true).Ensures map (fun _ _ => True)
      (fun fault _ => fault.isViolation = true) := by
  have hedit (change : List (RegionEntry ρ) → Except Violation (List (RegionEntry ρ)))
      (map : RegionMap ρ) : (edit change).Ensures map (fun _ _ => True)
        (fun fault _ => fault.isViolation = true) := by
    refine ⟨fun _ => trivial, fun herror => ?_⟩
    obtain ⟨-, violation, rfl, -⟩ := edit_eq_error herror
    rfl
  rw [RegionMap.insert, Op.ensures_bind, Op.ensures_require]
  split
  · refine (hedit _ map).bind (fun _ edited _ => ?_) (fun _ _ h => h)
    rw [Op.ensures_bind, Op.ensures_modify]
    exact hedit _ _
  · rfl

/-- Without room a region is not registered. -/
theorem insert_without_room (region : ρ) :
    (RegionMap.insert region false).Ensures map (fun _ _ => False) (fun _ _ => True) := by
  rw [RegionMap.insert, Op.ensures_bind, Op.ensures_require]
  split
  · change (get >>= fun (now : RegionMap ρ) => Op.ofChecked
      ((RegionEntry.ofRegion region).insert now.spare) >>= fun _ => Op.fail _ : Op _ Unit).Ensures ..
    rw [Op.ensures_bind, Op.ensures_get]
    exact (Op.ensures_true _ _).bind (fun _ _ _ => (Op.ensures_fail _).mpr trivial)
      (fun _ _ _ => trivial)
  · trivial

/-- A region apart from the others is registered if there is room. -/
theorem Settled.insert_with_room {regions : Set ρ} {region : ρ} (hmap : map.Settled regions)
    (hsome : Region.start region < Region.stop region)
    (hapart : ∀ other ∈ regions,
      Region.stop region ≤ Region.start other ∨ Region.stop other ≤ Region.start region) :
    (RegionMap.insert region true).Ensures map
      (fun _ after => after.Settled (Insert.insert region regions)) (fun _ _ => False) :=
  ((hmap.insert hsome hapart true).and (RegionMap.insert_with_room region)).mono
    (fun _ _ hafter => hafter.1)
    (fun _ _ hfault => Bool.false_ne_true (hfault.1.1.symm.trans hfault.2))

end RegionMap

/-- How many requests have been refused in an engine. -/
def Engine.refusals (engine : Engine) : Nat := engine.memory.refusals

namespace Running

/-- How many requests have been refused in the engine of a module. -/
def refusals (running : Running) : Nat := running.engine.refusals

variable {s : Running} {since : Memory} {placed : List Block} {others : List ModuleCode} {block : Block}
  {own all : List Block}

/-- An operation on memory fails on refusals if it does so of the memory. -/
theorem onMemory_failsOn {α : Type} {op : Op Memory α}
    (h : op.FailsOn Memory.refusals s.engine.memory) : (onMemory op).FailsOn refusals s :=
  (ensures_onMemory op).mpr h

/-- Taking a block out of the map of its module refuses nothing. -/
theorem unmapBlock_refusals (block : Block) :
    (unmapBlock block).Ensures s (fun _ t => t.refusals = s.refusals)
      (fun _ t => t.refusals = s.refusals) := by
  rw [unmapBlock, Op.ensures_bind, ensures_onBlockMap]
  exact (Op.ensures_true _ _).mono (fun _ _ _ => (Op.ensures_pure _).mpr rfl) (fun _ _ _ => rfl)

/-- The code of a module goes away without a refusal. -/
theorem retire_refusals :
    retire.Ensures s (fun _ t => t.refusals = s.refusals) (fun _ t => t.refusals = s.refusals) := by
  rw [retire, Op.ensures_bind, ensures_current, Op.ensures_bind, ensures_onEngine, Op.ensures_modify]
  refine Op.Ensures.forM (fun block _ t ht => ?_) rfl
  split
  · exact (Op.ensures_pure _).mpr ht
  · rw [unregisterBlock, Op.ensures_bind, ensures_onRegistry]
    exact (Op.ensures_true _ _).mono (fun _ _ _ => (Op.ensures_pure _).mpr ht) (fun _ _ _ => ht)

/-- A block apart from all others is entered into both indexes unless there is no room in one. -/
theorem registerBlock_failsOn (hmap : s.code.blockMap.Settled (filled own))
    (hregistry : s.engine.registry.Settled (filled all)) (hown : own ⊆ all)
    (hclear : ∀ other ∈ all, block.ClearOf other) : (registerBlock block).FailsOn refusals s := by
  rw [registerBlock]
  split
  · exact Op.failsOn_pure ()
  rename_i hfull
  have hsome : block.isEmpty = false := Bool.eq_false_of_not_eq_true hfull
  have hcode := Block.start_lt_stop hsome
  have hapart := Block.apart_of_clear hsome hclear
  have hless : ∀ t : Running, t.refusals = s.refusals + 1 → s.refusals < t.refusals :=
    fun t ht => ht ▸ Nat.lt_succ_self _
  rw [Op.FailsOn, Op.ensures_bind, ensures_onMemory]
  refine (Memory.askRoom_refusals _).mono (fun room memory hmemory => ?_) (fun _ _ h => h.elim)
  rw [Op.ensures_bind, ensures_onBlockMap]
  cases room with
  | false =>
    exact (RegionMap.insert_without_room block).mono (fun _ _ h => h.elim) (fun _ _ _ => hless _ hmemory)
  | true =>
    refine (hmap.insert_with_room hcode fun other hin => hapart other ⟨hown hin.1, hin.2⟩).mono
      (fun _ blockMap _ => ?_) (fun _ _ h => h.elim)
    rw [Op.ensures_bind, ensures_onMemory]
    refine (Memory.askRoom_refusals _).mono (fun room later hlater => ?_) (fun _ _ h => h.elim)
    rw [hmemory] at hlater
    rw [Op.ensures_onFailure, Op.ensures_during, ensures_onRegistry]
    cases room with
    | false =>
      refine (RegionMap.insert_without_room block).mono (fun _ _ h => h.elim) (fun fault _ _ => ?_)
      cases fault with
      | violation violation => exact hless _ hlater
      | failure failure =>
        refine (unmapBlock_refusals block).mono (fun _ u hu => ?_) (fun _ u hu => ?_)
        · exact hless u (hu.trans hlater)
        · exact hless u (hu.trans hlater)
    | true =>
      exact (hregistry.insert_with_room hcode hapart).mono (fun _ _ _ => hlater) (fun _ _ h => h.elim)

/-- A placed block becomes the last one of the module unless there is no room for it. -/
theorem addBlock_failsOn (h : s.InStep since (block :: placed) others) :
    (addBlock block).FailsOn refusals s := by
  have hgrown : (onMemory (Memory.grow referenceSize)).Ensures s
      (fun _ t => t.InStep since (block :: placed) others) (fun _ _ => True) :=
    (ensures_onMemory _).mpr ((Memory.grow_claims _).mono
      (fun _ _ hmemory => h.withMemory (h.sound.keeps hmemory)) (fun _ _ _ => trivial))
  refine (onMemory_failsOn (Memory.grow_failsOn _ _)).bind hgrown fun _ t ht => ?_
  have hclear : ∀ other ∈ t.code.blocks ++ others.flatMap (·.blocks), block.ClearOf other :=
    fun other hin => (List.pairwise_cons.mp ht.clear).1 other (List.mem_append_right placed hin)
  refine Op.FailsOn.bind (registerBlock_failsOn (List.forall_mem_cons.mp ht.maps).1 ht.registry
    (List.subset_append_left _ _) hclear) (Op.ensures_true _ _) fun _ u _ => ?_
  rw [appendBlock, Op.FailsOn, Op.ensures_bind, ensures_current, Op.ensures_bind, ensures_change,
    Op.ensures_pure]
  rfl

/-- The first blocks of a module are added unless there is no room for one of them. -/
theorem addFirstBlocks_failsOn {sharedStubs tier1 : Block}
    (h : s.InStep since (sharedStubs :: tier1 :: placed) others)
    (hserial : ∀ other ∈ s.code.blocks ++ others.flatMap (·.blocks), other.serial ≠ sharedStubs.serial)
    (hlt : sharedStubs.serial < s.engine.nextSerial) :
    (addFirstBlocks sharedStubs tier1).FailsOn refusals s := by
  refine (addBlock_failsOn h).bind (addBlock_inStep h hserial hlt) fun _ t ht => ?_
  exact (addBlock_failsOn ht.1).bind (Op.ensures_true _ _) fun _ _ _ => Op.failsOn_pure ()

end Running

namespace ModuleCode

variable {engine : Engine} {since : Memory} {placed : List Block} {codes : List ModuleCode}

/-- An operation on memory fails on refusals if it does so of the memory. -/
theorem onMemory_failsOn {α : Type} {op : Op Memory α} (h : op.FailsOn Memory.refusals engine.memory) :
    (Engine.onMemory op).FailsOn Engine.refusals engine :=
  (Op.ensures_focus _ _ op).mpr h

/-- The dispatch tables get room unless there is none. -/
theorem growDispatchTables_failsOn (memory : Memory) (mode : CompileMode) (parts : ModuleParts) :
    (growDispatchTables mode parts).FailsOn Memory.refusals memory := by
  rw [growDispatchTables]
  dsimp only
  split
  · exact (Memory.grow_failsOn memory _).bind (Op.ensures_true _ _) fun _ later _ =>
      Memory.grow_failsOn later _
  · exact Memory.grow_failsOn memory _

/-- A block that can be bound is bound without a refusal. -/
theorem bindBlock_failsOn {block : Block} (h : block.Bindable) (owner : Nat) (engine : Engine) :
    (Engine.bindBlock owner block).FailsOn Engine.refusals engine :=
  (Engine.bindBlock_ensures owner block engine).mono (fun _ _ he => he.2.1 ▸ rfl)
    (fun _ _ he => absurd h he.2.1)

/-- The blocks of new module code are added unless there is no room for one of them. -/
theorem started_failsOn {code : ModuleCode} {sharedStubs tier1 : Block}
    (h : Process.InStep since { engine, placed := sharedStubs :: tier1 :: placed, codes })
    (hblocks : code.blocks = []) (hsegments : code.lazySegments = []) (hmap : code.blockMap = {})
    (hserial : ∀ other ∈ codes.flatMap (·.blocks), other.serial ≠ sharedStubs.serial)
    (hlt : sharedStubs.serial < engine.nextSerial) (profiling : Bool) :
    (started code do
      Op.onFailure (Running.addFirstBlocks sharedStubs tier1) Running.retire
      Running.change (·.ensureLabels profiling)).FailsOn Engine.refusals engine := by
  have hjoined : Running.InStep { engine, code } since (sharedStubs :: tier1 :: placed) codes :=
    h.join hblocks hsegments (hmap ▸ RegionMap.settled_empty)
  suffices hadded : (do
      Op.onFailure (Running.addFirstBlocks sharedStubs tier1) Running.retire
      Running.change (·.ensureLabels profiling) : Op Running Unit).FailsOn Running.refusals
      { engine, code } from
    (started_ensures hadded).mono (fun _ _ ht => ht) (fun _ _ ⟨_, ht⟩ => ht)
  have hfirst : (Running.addFirstBlocks sharedStubs tier1).FailsOn Running.refusals
      { engine, code } := by
    refine Running.addFirstBlocks_failsOn hjoined ?_ hlt
    rw [hblocks]
    exact hserial
  have hundone : (Op.onFailure (Running.addFirstBlocks sharedStubs tier1) Running.retire).FailsOn
      Running.refusals { engine, code } := by
    refine (Op.ensures_onFailure _ _).mpr (hfirst.mono (fun _ _ ht => ht) (fun fault t ht => ?_))
    cases fault with
    | violation violation => exact ht
    | failure failure =>
      exact Running.retire_refusals.mono (fun _ _ hu => hu.symm ▸ ht) (fun _ _ hu => hu.symm ▸ ht)
  exact hundone.bind (Op.ensures_true _ _) fun _ _ _ => (Running.ensures_change _).mpr rfl

/-- Parts that fit become the code of a module unless something is refused. -/
theorem create_failsOn {parts : ModuleParts} {settings : Settings}
    (h : Process.InStep since { engine, placed := parts.sharedStubs :: parts.tier1 :: placed, codes })
    (hfit : parts.Fit settings.mode) (symbols : SymbolTable) :
    (create settings symbols parts).FailsOn Engine.refusals engine := by
  have hgrown : (Op.during .allocatingDispatchTables
      (Engine.onMemory (growDispatchTables settings.mode parts))).Ensures engine
      (fun _ e => Process.InStep since
        { engine := e, placed := parts.sharedStubs :: parts.tier1 :: placed, codes })
      (fun _ _ => True) := by
    refine Op.Ensures.during ((Op.ensures_focus _ _ _).mpr ?_)
    exact (growDispatchTables_claims _ _).mono
      (fun _ _ hmemory => h.withMemory (h.sound.keeps hmemory)) (fun _ _ _ => trivial)
  obtain ⟨tables, htables⟩ := hfit.dispatch
  rw [create, Op.FailsOn, Op.ensures_bind, Op.ensures_require, if_pos (decide_eq_true hfit.sharedKind),
    Op.ensures_bind, Op.ensures_require, if_pos hfit.tierKind]
  refine ((onMemory_failsOn (growDispatchTables_failsOn _ _ _)).during _).bind hgrown fun _ e he => ?_
  rw [htables, Op.FailsOn, Op.ensures_bind, Op.ensures_ofExcept]
  dsimp only
  rw [Op.ensures_bind, Op.ensures_get, Op.ensures_bind, Op.ensures_modify]
  have hnumbered := he.withOwners e.owners (e.nextOwner + 1)
  refine (bindBlock_failsOn hfit.sharedStubs _ _).bind (Engine.bindBlock_inStep hnumbered _)
    fun sharedStubs f hf => ?_
  obtain ⟨hf, hserial, hnext, -⟩ := hf
  have hswapped := hf.perm (List.Perm.swap ..) (List.Perm.refl _)
  refine (bindBlock_failsOn hfit.tier1 _ _).bind (Engine.bindBlock_inStep hswapped _)
    fun tier1 g hg => ?_
  obtain ⟨hg, hserial', hnext', -⟩ := hg
  have hbound := hg.perm (List.Perm.swap ..) (List.Perm.refl _)
  rw [Op.FailsOn, Op.ensures_bind, Op.ensures_modify]
  refine started_failsOn (hbound.withOwners _ _) rfl rfl rfl (hnumbered.serial_ne hserial) ?_ _
  change sharedStubs.serial < g.nextSerial
  omega

/-- Whether compiled code can be patched wherever it may be put, given where traps are handled. -/
def Patchable (compiled : CompiledBlock) (plan : PatchPlan) (symbols : SymbolTable)
    (trapHandler : Option UInt64) : Prop :=
  ∀ base, base + compiled.code.length ≤ Memory.endOfAddresses →
    (plan.apply base symbols trapHandler compiled.code).stopped = none

/-- A small size can be rounded up to pages, and so can what that gives. -/
theorem exists_roundUp_eq_ok {bytes : Nat} (h : bytes < UInt32.size) :
    ∃ capacity pages, Page.roundUp bytes = .ok capacity ∧ Page.roundUp capacity = .ok pages := by
  have hround : ∀ n, n < 2 * UInt32.size → ∃ rounded, Page.roundUp n = .ok rounded := by
    intro n hn
    refine ⟨_, if_pos ?_⟩
    simp only [UInt32.size, UInt64.size, Page.size] at hn ⊢
    omega
  obtain ⟨capacity, hcapacity⟩ := hround bytes (by omega)
  have hclose := (Page.roundUp_eq_ok hcapacity).2.2
  obtain ⟨pages, hpages⟩ := hround capacity (by
    simp only [UInt32.size, Page.size] at h hclose ⊢
    omega)
  exact ⟨capacity, pages, hcapacity, hpages⟩

/-- A checked block is placed unless something is refused, if it can be patched anywhere. -/
theorem place_failsOn (h : Process.InStep since { engine, placed, codes }) {compiled : CompiledBlock}
    {funcCount : Nat} (hchecked : compiled.Checked funcCount) {plan : PatchPlan} {symbols : SymbolTable}
    {shared : Option Block}
    (hpatch : Patchable compiled plan symbols (Piece.ofBlock compiled plan symbols shared).trapHandler) :
    (Engine.onMemory (Block.place compiled plan symbols shared)).FailsOn Engine.refusals engine := by
  obtain ⟨capacity, pages, hcapacity, hpages⟩ := exists_roundUp_eq_ok hchecked.small
  exact onMemory_failsOn (Block.place_failsOn h.sound hcapacity hpages hchecked.inOrder
    (CodeTables.rangesInside_of_boundsFault? hchecked.inBounds) hpatch)

/-- The code of a module is made of an image that is not refused unless something else is, if the code
can be patched anywhere and every function covered has had its code range once. -/
theorem ofImage_failsOn (h : Process.InStep since { engine, placed, codes }) {settings : Settings}
    {symbols : SymbolTable} {image : Image} (hfault : image.fault? settings = none)
    (hshared : Patchable image.sharedStubs image.sharedPlan symbols none)
    (htier : ∀ address, Patchable image.tier image.tierPlan symbols (some address))
    {once once' : Block} (hcovers : once.Covers image.sharedStubs)
    (hcovers' : once'.Covers image.tier) :
    (ofImage settings symbols image).FailsOn Engine.refusals engine := by
  have hchecked := Image.checked_of_fault? hfault
  have htrap : (Engine.onMemory (Block.place image.sharedStubs image.sharedPlan symbols none)).Ensures
      engine (fun block _ => image.sharedStubs.kind = .sharedStubs → block.trapCode.isSome = true)
      (fun _ _ => True) := (Op.ensures_focus _ _ _).mpr (Block.place_trapCode ..)
  rw [ofImage, hfault]
  refine (place_failsOn h hchecked.sharedStubs hshared).bind ((place_inStep h ..).and htrap)
    fun sharedStubs e he => ?_
  obtain ⟨⟨he, -, hmade, -⟩, htrap⟩ := he
  have htrapped : Patchable image.tier image.tierPlan symbols
      (Piece.ofBlock image.tier image.tierPlan symbols (some sharedStubs)).trapHandler := by
    obtain ⟨address, haddress⟩ := Option.isSome_iff_exists.mp (htrap hchecked.sharedKind)
    rw [Piece.ofBlock, Option.bind_some, haddress]
    exact htier _
  refine (place_failsOn he hchecked.tier htrapped).bind (place_inStep he ..) fun tier1 f hf => ?_
  obtain ⟨hf, -, hmade', -⟩ := hf
  refine create_failsOn (hf.perm (List.Perm.swap ..) (List.Perm.refl _)) ?_ symbols
  exact hchecked.fit_of_bindable hmade hmade' (hmade.bindable_of_covers hcovers)
    (hmade'.bindable_of_covers hcovers') settings.mode

end ModuleCode

end CompiledCode

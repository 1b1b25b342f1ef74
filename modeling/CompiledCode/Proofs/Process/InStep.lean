import CompiledCode.Proofs.Block
import CompiledCode.Proofs.RegionMap.Update
import Mathlib.Order.BooleanAlgebra.Set

/-!
# The blocks of a process and the indexes over them

A process has one engine and the code of any number of modules. Each module lists its blocks and
has a map of them by address, and the registry of the engine is a map of the blocks of all
modules; blocks without code are listed and in no map. Besides there are blocks that have been
placed and wait to become part of a module.

All of these are in step if the maps hold exactly the blocks listed that have code, and if all
blocks lie where nothing else is. That no two blocks share an address follows from where code
memory puts them, and not from the maps, which would refuse a block that overlaps another one.
They are in step since some earlier time if nothing claimed by then has changed.
-/

namespace CompiledCode

/-- The blocks of a list that hold code. -/
def filled (blocks : List Block) : Set Block := {block | block ∈ blocks ∧ block.isEmpty = false}

section Filled

variable {block : Block} {blocks others : List Block}

theorem mem_filled : block ∈ filled blocks ↔ block ∈ blocks ∧ block.isEmpty = false := Iff.rfl

/-- A block with code takes up a stretch of addresses. -/
theorem Block.start_lt_stop (h : block.isEmpty = false) : Region.start block < Region.stop block := by
  rw [Block.isEmpty, beq_eq_false_iff_ne] at h
  exact Nat.lt_add_of_pos_right (Nat.pos_of_ne_zero h)

/-- A block with code that is apart from others lies before or behind each of those with code. -/
theorem Block.apart_of_clear (h : block.isEmpty = false) (hclear : ∀ other ∈ blocks, block.ClearOf other) :
    ∀ other ∈ filled blocks, Region.stop block ≤ Region.start other ∨
      Region.stop other ≤ Region.start block :=
  fun other hin => (hclear other hin.1).apart h hin.2

/-- The order of a list has no part in which of its blocks hold code. -/
theorem filled_perm (h : blocks.Perm others) : filled blocks = filled others := by
  ext block
  exact and_congr_left fun _ => h.mem_iff

/-- A block without code counts for nothing. -/
theorem filled_cons_of_isEmpty (h : block.isEmpty = true) : filled (block :: blocks) = filled blocks := by
  ext other
  simp only [mem_filled, List.mem_cons]
  constructor
  · rintro ⟨rfl | hin, hsome⟩
    · exact absurd h (by simp [hsome])
    · exact ⟨hin, hsome⟩
  · rintro ⟨hin, hsome⟩
    exact ⟨.inr hin, hsome⟩

/-- A block with code is one more. -/
theorem filled_cons (h : block.isEmpty = false) :
    filled (block :: blocks) = insert block (filled blocks) := by
  ext other
  simp only [mem_filled, List.mem_cons, Set.mem_insert_iff]
  constructor
  · rintro ⟨rfl | hin, hsome⟩
    · exact .inl rfl
    · exact .inr ⟨hin, hsome⟩
  · rintro (rfl | ⟨hin, hsome⟩)
    · exact ⟨.inl rfl, h⟩
    · exact ⟨.inr hin, hsome⟩

/-- Without a block that is not listed twice the others are left. -/
theorem filled_cons_diff (h : block.isEmpty = false) (hnew : block ∉ blocks) :
    filled (block :: blocks) \ {block} = filled blocks := by
  rw [filled_cons h]
  exact Set.insert_sdiff_self_of_notMem fun hin => hnew hin.1

end Filled

/-- The code of all modules of a process. -/
structure Process where
  /-- What the modules share. -/
  engine : Engine := {}
  /-- The blocks that have been placed for modules to come. -/
  placed : List Block := []
  /-- The code of every module that is alive. -/
  codes : List ModuleCode := []

namespace Process

/-- Every block that a module owns. -/
def blocks (process : Process) : List Block := process.codes.flatMap (·.blocks)

/-- Every block that is owned or waits to be. -/
def held (process : Process) : List Block := process.placed ++ process.blocks

/-- All blocks lie apart from each other in code memory, which keeps what was claimed earlier, and
the maps hold those with code. -/
structure InStep (since : Memory) (process : Process) : Prop where
  kept : since.Keeps process.engine.memory
  hosted : ∀ block ∈ process.held, process.engine.memory.Hosts block
  clear : process.held.Pairwise Block.ClearOf
  backed : ∀ code ∈ process.codes, ∀ segment ∈ code.lazySegments,
    process.engine.memory.Backs segment
  serials : (process.blocks.map Block.serial).Nodup
  fresh : ∀ block ∈ process.blocks, block.serial < process.engine.nextSerial
  maps : ∀ code ∈ process.codes, code.blockMap.Settled (filled code.blocks)
  registry : process.engine.registry.Settled (filled process.blocks)

/-- A process without any code is in step if its memory is sound. -/
theorem inStep_start {engine : Engine} (hsound : engine.memory.Sound)
    (hregistry : engine.registry.Settled ∅) : InStep engine.memory { engine } where
  kept := hsound.keeps rfl
  hosted := List.forall_mem_nil _
  clear := List.Pairwise.nil
  backed := List.forall_mem_nil _
  serials := List.nodup_nil
  fresh := List.forall_mem_nil _
  maps := List.forall_mem_nil _
  registry := by
    have hnone : filled ({ engine } : Process).blocks = ∅ :=
      Set.eq_empty_of_forall_notMem fun _ h => nomatch h.1
    rw [hnone]
    exact hregistry

/-- Code memory is sound. -/
theorem InStep.sound {since : Memory} {process : Process} (h : InStep since process) :
    process.engine.memory.Sound := h.kept.sound

/-- What is in step since an earlier time is in step since now. -/
theorem InStep.now {since : Memory} {process : Process} (h : InStep since process) :
    InStep process.engine.memory process := { h with kept := h.sound.keeps rfl }

/-- What is in step since some time is in step since an earlier one. -/
theorem InStep.before {since middle : Memory} {process : Process} (h : InStep middle process)
    (hkeeps : since.Keeps middle) : InStep since process :=
  { h with kept := hkeeps.trans h.kept }

variable {engine : Engine} {since memory : Memory} {placed placed' : List Block} {codes codes' : List ModuleCode}
  {code : ModuleCode} {block : Block}

/-- The order of modules and of placed blocks has no part in being in step. -/
theorem InStep.perm (h : InStep since { engine, placed, codes }) (hplaced : placed.Perm placed')
    (hcodes : codes.Perm codes') : InStep since { engine, placed := placed', codes := codes' } := by
  have hblocks : (codes.flatMap (·.blocks)).Perm (codes'.flatMap (·.blocks)) := hcodes.flatMap_right _
  have hheld := hplaced.append hblocks
  exact
    { kept := h.kept
      hosted := fun block hin => h.hosted block (hheld.mem_iff.mpr hin)
      clear := (hheld.pairwise_iff fun hclear => symm hclear).mp h.clear
      backed := fun code hin => h.backed code (hcodes.mem_iff.mpr hin)
      serials := (hblocks.map _).nodup_iff.mp h.serials
      fresh := fun block hin => h.fresh block (hblocks.mem_iff.mpr hin)
      maps := fun code hin => h.maps code (hcodes.mem_iff.mpr hin)
      registry := filled_perm hblocks ▸ h.registry }

/-- As long as nothing is unmapped and no claim is given back, everything stays in step. -/
theorem InStep.withMemory (h : InStep since { engine, placed, codes }) (hkeeps : engine.memory.Keeps memory) :
    InStep since { engine := { engine with memory }, placed, codes } :=
  { h with
    kept := h.kept.trans hkeeps
    hosted := fun block hin => (h.hosted block hin).keeps hkeeps
    backed := fun code hin segment hsegment => (h.backed code hin segment hsegment).keeps hkeeps }

/-- Owners have no part in being in step. -/
theorem InStep.withOwners (h : InStep since { engine, placed, codes }) (owners : List Nat) (nextOwner : Nat) :
    InStep since { engine := { engine with owners, nextOwner }, placed, codes } :=
  ⟨h.kept, h.hosted, h.clear, h.backed, h.serials, h.fresh, h.maps, h.registry⟩

/-- A block that has been placed may be given up. -/
theorem InStep.discard (h : InStep since { engine, placed := block :: placed, codes }) :
    InStep since { engine, placed, codes } :=
  { h with
    hosted := fun other hin => h.hosted other (List.mem_cons_of_mem block hin)
    clear := (List.pairwise_cons.mp h.clear).2 }

/-- A block that is placed apart from the others waits to become part of a module. -/
theorem InStep.place (h : InStep since { engine, placed, codes }) (hkeeps : engine.memory.Keeps memory)
    (hhosts : memory.Hosts block)
    (hclear : ∀ other, engine.memory.Hosts other → block.ClearOf other) :
    InStep since { engine := { engine with memory }, placed := block :: placed, codes } :=
  { h.withMemory hkeeps with
    hosted := List.forall_mem_cons.mpr ⟨hhosts, (h.withMemory hkeeps).hosted⟩
    clear := List.pairwise_cons.mpr ⟨fun other hin => hclear other (h.hosted other hin), h.clear⟩ }

/-- No block of a module has the next serial number yet. -/
theorem InStep.serial_ne (h : InStep since { engine, placed, codes })
    (hserial : block.serial = engine.nextSerial) :
    ∀ other ∈ codes.flatMap (·.blocks), other.serial ≠ block.serial := by
  intro other hin hsame
  have hlt := h.fresh other hin
  rw [hsame, hserial] at hlt
  exact Nat.lt_irrefl _ hlt

/-- New module code without any blocks may join. -/
theorem InStep.join (h : InStep since { engine, placed, codes }) (hblocks : code.blocks = [])
    (hsegments : code.lazySegments = []) (hmap : code.blockMap.Settled ∅) :
    InStep since { engine, placed, codes := code :: codes } := by
  have hsame : ({ engine, placed, codes := code :: codes } : Process).blocks =
      ({ engine, placed, codes } : Process).blocks := by
    rw [blocks, List.flatMap_cons, hblocks]
    rfl
  have hnone : filled code.blocks = ∅ := by
    rw [hblocks]
    exact Set.eq_empty_of_forall_notMem fun _ h => nomatch h.1
  refine
    { kept := h.kept
      hosted := ?_
      clear := ?_
      backed := List.forall_mem_cons.mpr ⟨?_, h.backed⟩
      serials := hsame ▸ h.serials
      fresh := hsame ▸ h.fresh
      maps := List.forall_mem_cons.mpr ⟨hnone ▸ hmap, h.maps⟩
      registry := hsame ▸ h.registry }
  · rw [held, hsame]
    exact h.hosted
  · rw [held, hsame]
    exact h.clear
  · rw [hsegments]
    nofun

/-- The code of a module may lose blocks together with its entries in the indexes. -/
theorem InStep.shrink (h : InStep since { engine, placed, codes := code :: codes }) {left : ModuleCode}
    {registry : RegionMap Block} (hblocks : left.blocks.Sublist code.blocks)
    (hsegments : left.lazySegments = code.lazySegments)
    (hmap : left.blockMap.Settled (filled left.blocks))
    (hregistry : registry.Settled (filled (left.blocks ++ codes.flatMap (·.blocks)))) :
    InStep since { engine := { engine with registry }, placed, codes := left :: codes } := by
  have howned : (left.blocks ++ codes.flatMap (·.blocks)).Sublist
      (code.blocks ++ codes.flatMap (·.blocks)) := hblocks.append_right _
  have hheld := howned.append_left placed
  obtain ⟨hbacked, hothers⟩ := List.forall_mem_cons.mp h.backed
  exact
    { kept := h.kept
      hosted := fun block hin => h.hosted block (hheld.subset hin)
      clear := h.clear.sublist hheld
      backed := List.forall_mem_cons.mpr ⟨hsegments ▸ hbacked, hothers⟩
      serials := h.serials.sublist (howned.map _)
      fresh := fun block hin => h.fresh block (howned.subset hin)
      maps := List.forall_mem_cons.mpr ⟨hmap, (List.forall_mem_cons.mp h.maps).2⟩
      registry := hregistry }

/-- The code of a module may lose a block together with its entries in the indexes, and the block waits
again. -/
theorem InStep.release (h : InStep since { engine, placed, codes := code :: codes }) {left : ModuleCode}
    {registry : RegionMap Block} (hblocks : code.blocks.Perm (block :: left.blocks))
    (hsegments : left.lazySegments = code.lazySegments)
    (hmap : left.blockMap.Settled (filled left.blocks))
    (hregistry : registry.Settled (filled (left.blocks ++ codes.flatMap (·.blocks)))) :
    InStep since
      { engine := { engine with registry }, placed := block :: placed, codes := left :: codes } := by
  have howned : (code.blocks ++ codes.flatMap (·.blocks)).Perm
      (block :: (left.blocks ++ codes.flatMap (·.blocks))) := hblocks.append_right _
  have hheld : (placed ++ (code.blocks ++ codes.flatMap (·.blocks))).Perm
      (block :: placed ++ (left.blocks ++ codes.flatMap (·.blocks))) :=
    (howned.append_left placed).trans List.perm_middle
  obtain ⟨hbacked, hothers⟩ := List.forall_mem_cons.mp h.backed
  exact
    { kept := h.kept
      hosted := fun other hin => h.hosted other (hheld.mem_iff.mpr hin)
      clear := (hheld.pairwise_iff fun hclear => symm hclear).mp h.clear
      backed := List.forall_mem_cons.mpr ⟨hsegments ▸ hbacked, hothers⟩
      serials := (List.nodup_cons.mp ((howned.map Block.serial).nodup_iff.mp h.serials)).2
      fresh := fun other hin => h.fresh other (howned.mem_iff.mpr (List.mem_cons_of_mem block hin))
      maps := List.forall_mem_cons.mpr ⟨hmap, (List.forall_mem_cons.mp h.maps).2⟩
      registry := hregistry }

/-- Binding a block uses up a serial number, which no block of a module has. -/
theorem InStep.bind (h : InStep since { engine, placed := block :: placed, codes }) (owner : Option Owner) :
    InStep since
      { engine := { engine with nextSerial := engine.nextSerial + 1 }
        placed := { block with owner, serial := engine.nextSerial } :: placed
        codes } :=
  { h with
    hosted := by
      obtain ⟨hblock, hrest⟩ := List.forall_mem_cons.mp h.hosted
      exact List.forall_mem_cons.mpr ⟨hblock, hrest⟩
    clear := by
      obtain ⟨hblock, hrest⟩ := List.pairwise_cons.mp h.clear
      exact List.pairwise_cons.mpr ⟨hblock, hrest⟩
    fresh := fun block hin => Nat.lt_succ_of_lt (h.fresh block hin) }

end Process

end CompiledCode

import CompiledCode.ModuleCode.Report
import CompiledCode.Proofs.Process.Calls

/-!
# Everything that happens in a process

Blocks are placed, and given up or made into the code of a module; modules are created or loaded,
asked for entries, given an optimized tier, and dropped. Each of these may fail. A mapping that
nothing lives in any more is given back and can be handed out again, with other contents.

A stub compiler may itself ask for an install. If that is not refused then neither call ever
returns, as the one waits for the lock that the other one has; hence only compilers of a published
tier ask here when an entry is requested, while the compiler of an install always may.

Every process that comes about in this way is in step, so that lookups find what is there. What is
true of new module code, and lasts through everything that is done to it, is true at all times.
-/

namespace CompiledCode

/-- Code memory after a mapping has been given back. -/
def Memory.unmap (memory : Memory) (mapping : Nat × Nat) : Memory :=
  { memory with
    mapped := memory.mapped.erase mapping
    byteAt := fun address =>
      if mapping.1 ≤ address ∧ address < mapping.1 + mapping.2 then 0 else memory.byteAt address }

namespace Process

/-- Whether there is a mapping that no block and no segment for entry stubs needs. -/
structure Spares (process : Process) (mapping : Nat × Nat) : Prop where
  mapped : mapping ∈ process.engine.memory.mapped
  blocks : ∀ block ∈ process.held,
    block.isEmpty = true ∨ (block.segment.base, block.segment.capacity) ≠ mapping
  segments : ∀ code ∈ process.codes, ∀ segment ∈ code.lazySegments,
    (segment.base, segment.capacity) ≠ mapping

/-- A process and what can become of it next. -/
inductive Step : Process → Process → Prop where
  /-- Neither blocks that wait nor modules come in any order. -/
  | reorder {engine : Engine} {placed placed' : List Block} {codes codes' : List ModuleCode}
      (hplaced : placed.Perm placed') (hcodes : codes.Perm codes') :
    Step { engine, placed, codes } { engine, placed := placed', codes := codes' }
  /-- Compiled code is placed, to become part of a module. -/
  | place {engine after : Engine} {placed : List Block} {codes : List ModuleCode}
      {compiled : CompiledBlock} {plan : PatchPlan} {symbols : SymbolTable} {shared : Option Block}
      {block : Block}
      (hend : Engine.onMemory (Block.place compiled plan symbols shared) engine = .ok block after) :
    Step { engine, placed, codes } { engine := after, placed := block :: placed, codes }
  /-- Compiled code cannot be placed. -/
  | placeFails {engine after : Engine} {placed : List Block} {codes : List ModuleCode}
      {compiled : CompiledBlock} {plan : PatchPlan} {symbols : SymbolTable} {shared : Option Block}
      {failure : Failure}
      (hend : Engine.onMemory (Block.place compiled plan symbols shared) engine =
        .error (.failure failure) after) :
    Step { engine, placed, codes } { engine := after, placed, codes }
  /-- A block that was placed is given up. -/
  | discard {engine : Engine} {block : Block} {placed : List Block} {codes : List ModuleCode} :
    Step { engine, placed := block :: placed, codes } { engine, placed, codes }
  /-- The code of a module is created from blocks that were placed. -/
  | create {engine after : Engine} {parts : ModuleParts} {placed : List Block}
      {codes : List ModuleCode} {settings : Settings} {symbols : SymbolTable} {code : ModuleCode}
      (hend : ModuleCode.create settings symbols parts engine = .ok code after) :
    Step { engine, placed := parts.sharedStubs :: parts.tier1 :: placed, codes }
      { engine := after, placed, codes := code :: codes }
  /-- The code of a module cannot be created, and its blocks go away. -/
  | createFails {engine after : Engine} {parts : ModuleParts} {placed : List Block}
      {codes : List ModuleCode} {settings : Settings} {symbols : SymbolTable} {failure : Failure}
      (hend : ModuleCode.create settings symbols parts engine = .error (.failure failure) after) :
    Step { engine, placed := parts.sharedStubs :: parts.tier1 :: placed, codes }
      { engine := after, placed, codes }
  /-- The code of a module is loaded. -/
  | load {engine after : Engine} {placed : List Block} {codes : List ModuleCode}
      {settings : Settings} {symbols : SymbolTable} {bytes : Bytes} {code : ModuleCode}
      (hend : ModuleCode.load settings symbols bytes engine = .ok code after) :
    Step { engine, placed, codes } { engine := after, placed, codes := code :: codes }
  /-- An image is refused, or its code cannot be created. -/
  | loadFails {engine after : Engine} {placed : List Block} {codes : List ModuleCode}
      {settings : Settings} {symbols : SymbolTable} {bytes : Bytes} {failure : Failure}
      (hend : ModuleCode.load settings symbols bytes engine = .error (.failure failure) after) :
    Step { engine, placed, codes } { engine := after, placed, codes }
  /-- The interpreter entry of a function is asked for, and found, made or not available. -/
  | entry {engine : Engine} {placed : List Block} {codes : List ModuleCode} {code : ModuleCode}
      {compiler : StubCompiler} {func : Nat} {result : Except Fault (FuncExport × Nat)} {t : Running}
      (hasks : code.hasOptimized = true ∨ ∀ block, compiler.asksForInstall block = false)
      (hend : (Running.interpEntry compiler func).ending { engine, code } = (result, t))
      (hcalm : ∀ violation, result ≠ .error (.violation violation)) :
    Step { engine, placed, codes := code :: codes }
      { engine := t.engine, placed, codes := t.code :: codes }
  /-- An optimized tier is installed, refused or given up. -/
  | install {engine : Engine} {placed : List Block} {codes : List ModuleCode} {code : ModuleCode}
      {compiler : StubCompiler} {plan : PatchPlan} {compiled : CompiledBlock}
      {result : Except Fault Unit} {t : Running}
      (hend : (Running.installOptimized compiler plan compiled).ending { engine, code } = (result, t))
      (hcalm : ∀ violation, result ≠ .error (.violation violation)) :
    Step { engine, placed, codes := code :: codes }
      { engine := t.engine, placed, codes := t.code :: codes }
  /-- Other parts of the runtime fill the dispatch tables. -/
  | dispatch {engine : Engine} {placed : List Block} {codes : List ModuleCode} {code : ModuleCode}
      {tables : DispatchTables} :
    Step { engine, placed, codes := code :: codes }
      { engine, placed, codes := code.withDispatch tables :: codes }
  /-- Labels for profilers are made. -/
  | label {engine : Engine} {placed : List Block} {codes : List ModuleCode} {code : ModuleCode}
      {wanted : Bool} :
    Step { engine, placed, codes := code :: codes }
      { engine, placed, codes := code.ensureLabels wanted :: codes }
  /-- The code of a module is dropped. -/
  | drop {engine : Engine} {placed : List Block} {codes : List ModuleCode} {code : ModuleCode}
      {t : Running} (hend : Running.retire { engine, code } = .ok () t) :
    Step { engine, placed, codes := code :: codes } { engine := t.engine, placed, codes }
  /-- A mapping that nothing lives in is given back. -/
  | unmap {process : Process} {mapping : Nat × Nat} (hspares : process.Spares mapping) :
    Step process
      { process with
        engine := { process.engine with memory := process.engine.memory.unmap mapping } }

/-- A process that has begun without any code and run from there. -/
inductive Reachable : Process → Prop where
  /-- No code is registered, and what is mapped by others does not overlap. -/
  | start {engine : Engine} (hsound : engine.memory.Sound) (hregistry : engine.registry.Settled ∅) :
    Reachable { engine }
  /-- One step more. -/
  | step {p q : Process} (hrun : Reachable p) (hstep : Step p q) : Reachable q

variable {since : Memory} {p q : Process} {mapping : Nat × Nat}

/-- Giving back a mapping that nothing lives in leaves everything in step. -/
theorem InStep.unmap (h : InStep since p) (hspares : p.Spares mapping) :
    InStep (p.engine.memory.unmap mapping)
      { p with engine := { p.engine with memory := p.engine.memory.unmap mapping } } := by
  have hsublist : (p.engine.memory.mapped.erase mapping).Sublist p.engine.memory.mapped :=
    List.erase_sublist
  have hsound : (p.engine.memory.unmap mapping).Sound :=
    ⟨h.sound.limited, fun other hin => h.sound.aligned other (hsublist.subset hin),
      fun other hin => h.sound.nonempty other (hsublist.subset hin), h.sound.apart.sublist hsublist⟩
  refine { h with kept := hsound.keeps rfl, hosted := ?_, backed := ?_ }
  · intro block hin
    obtain hempty | ⟨hmapped, hbounds⟩ := h.hosted block hin
    · exact .inl hempty
    · refine (hspares.blocks block hin).imp_right fun hne => ?_
      exact ⟨(List.mem_erase_of_ne hne).mpr hmapped, hbounds⟩
  · intro code hcode segment hsegment
    exact (h.backed code hcode segment hsegment).imp_right
      (List.mem_erase_of_ne (hspares.segments code hcode segment hsegment)).mpr

/-- The code of a block stays when a mapping is given back that nothing lives in. -/
theorem InStep.read_unmap (h : InStep since p) (hspares : p.Spares mapping) {block : Block}
    (hblock : block ∈ p.held) :
    (p.engine.memory.unmap mapping).read block.base block.length =
      p.engine.memory.read block.base block.length := by
  refine Memory.read_congr fun i hi => if_neg ?_
  have hsome : ¬ block.isEmpty = true := by
    rw [Block.isEmpty, beq_iff_eq]
    omega
  obtain ⟨hmapped, hcapacity, -⟩ := (h.hosted block hblock).resolve_left hsome
  have hne := (hspares.blocks block hblock).resolve_left hsome
  have hapart := (h.sound.eq_or_apart hmapped hspares.mapped).resolve_left hne
  rw [Block.length] at hi
  rw [Apart] at hapart
  rw [Block.base]
  dsimp only at hapart
  omega

/-- Whatever happens next in a process, it stays in step and keeps what is claimed, or else a
mapping is given back that nothing lives in. -/
theorem Step.inStep_or_unmap (hstep : Step p q) (h : InStep p.engine.memory p) :
    InStep p.engine.memory q ∨ ∃ mapping, p.Spares mapping ∧
      q = { p with engine := { p.engine with memory := p.engine.memory.unmap mapping } } := by
  cases hstep with
  | reorder hplaced hcodes => exact .inl (h.perm hplaced hcodes)
  | place hend => exact .inl ((ModuleCode.place_inStep h ..).of_ok hend).1
  | placeFails hend => exact .inl ((ModuleCode.place_inStep h ..).of_error hend).2.2
  | discard => exact .inl h.discard
  | create hend => exact .inl ((ModuleCode.create_inStep _ _ h).of_ok hend)
  | createFails hend => exact .inl ((ModuleCode.create_inStep _ _ h).of_error hend).2.2
  | load hend => exact .inl ((ModuleCode.load_inStep h ..).of_ok hend)
  | loadFails hend => exact .inl ((ModuleCode.load_inStep h ..).of_error hend).2.2
  | entry hasks hend hcalm =>
    have hrunning : Running.InStep ⟨_, _⟩ _ _ _ := h
    have hafter := (Running.interpEntry_inStep hrunning _).ending hend
    split at hafter
    · exact .inl hafter
    · exact .inl hafter.2
  | install hend hcalm =>
    have hrunning : Running.InStep ⟨_, _⟩ _ _ _ := h
    have hafter := (Running.installOptimized_inStep hrunning _ _).ending hend
    split at hafter
    · exact .inl hafter.1
    · exact .inl hafter.2
  | @dispatch engine placed codes code tables =>
    have hrunning : Running.InStep ⟨engine, code⟩ _ placed codes := h
    exact .inl (hrunning.congr (t := ⟨engine, code.withDispatch tables⟩) ⟨rfl, rfl, rfl, rfl⟩)
  | @label engine placed codes code wanted =>
    obtain ⟨labels, hlabels⟩ := ModuleCode.exists_ensureLabels_eq code wanted
    have hrunning : Running.InStep ⟨engine, code⟩ _ placed codes := h
    rw [hlabels]
    exact .inl (hrunning.congr (t := ⟨engine, { code with labels }⟩) ⟨rfl, rfl, rfl, rfl⟩)
  | drop hend =>
    have hrunning : Running.InStep ⟨_, _⟩ _ _ _ := h
    exact .inl ((Running.retire_inStep hrunning).of_ok hend)
  | unmap hspares => exact .inr ⟨_, hspares, rfl⟩

/-- A process stays in step whatever happens next. -/
theorem Step.inStep (hstep : Step p q) (h : InStep p.engine.memory p) :
    InStep q.engine.memory q := by
  rcases hstep.inStep_or_unmap h with hq | ⟨mapping, hspares, rfl⟩
  · exact hq.now
  · exact h.unmap hspares

/-- The code of a block that has a segment of its own stays as it is whatever happens next. -/
theorem Step.bears (hstep : Step p q) (h : InStep p.engine.memory p) {block : Block}
    (hin : block ∈ p.held) {compiled : CompiledBlock} {plan : PatchPlan}
    (hbears : p.engine.memory.Bears block compiled plan) :
    q.engine.memory.Bears block compiled plan := by
  rcases hstep.inStep_or_unmap h with hq | ⟨mapping, hspares, rfl⟩
  · exact hbears.keeps (h.hosted block hin) hq.kept
  · obtain ⟨symbols, trapHandler, hpatched⟩ := hbears.patched
    have hread := h.read_unmap hspares hin
    rw [Block.base, Block.length, hbears.start, Nat.add_zero, Nat.sub_zero] at hread
    rw [← hread] at hpatched
    exact { hbears with patched := ⟨symbols, trapHandler, hpatched⟩ }

/-- A block goes on holding the piece of code that it holds whatever happens next. -/
theorem Step.shows (hstep : Step p q) (h : InStep p.engine.memory p) {block : Block}
    (hin : block ∈ p.held) {piece : Piece} (hshows : p.engine.memory.Shows block piece) :
    q.engine.memory.Shows block piece := by
  rcases hstep.inStep_or_unmap h with hq | ⟨mapping, hspares, rfl⟩
  · exact hshows.keeps (h.hosted block hin) hq.kept
  · exact { hshows with patched := (h.read_unmap hspares hin).symm ▸ hshows.patched }

/-- A process is in step at all times. -/
theorem Reachable.inStep (h : Reachable p) : InStep p.engine.memory p := by
  induction h with
  | start hsound hregistry => exact inStep_start hsound hregistry
  | step _ hstep ih => exact hstep.inStep ih

/-- Whether something is true of new module code and stays true whatever is done to the code. -/
structure Lasting (motive : ModuleCode → Prop) : Prop where
  /-- The code is created, to be loaded or not. -/
  create : ∀ {settings : Settings} {symbols : SymbolTable} {parts : ModuleParts} {engine after : Engine}
    {code : ModuleCode}, ModuleCode.create settings symbols parts engine = .ok code after → motive code
  /-- An entry is asked for. -/
  entry : ∀ {s t : Running} {placed : List Block} {others : List ModuleCode} {compiler : StubCompiler}
    {func : Nat} {result : Except Fault (FuncExport × Nat)}, s.InStep s.engine.memory placed others →
    (s.code.hasOptimized = true ∨ ∀ block, compiler.asksForInstall block = false) →
    (Running.interpEntry compiler func).ending s = (result, t) →
    (∀ violation, result ≠ .error (.violation violation)) → motive s.code → motive t.code
  /-- An optimized tier is to be installed. -/
  install : ∀ {s t : Running} {placed : List Block} {others : List ModuleCode} {compiler : StubCompiler}
    {plan : PatchPlan} {compiled : CompiledBlock} {result : Except Fault Unit},
    s.InStep s.engine.memory placed others →
    (Running.installOptimized compiler plan compiled).ending s = (result, t) →
    (∀ violation, result ≠ .error (.violation violation)) → motive s.code → motive t.code
  /-- The dispatch tables are filled from outside. -/
  dispatch : ∀ {code : ModuleCode} (tables : DispatchTables), motive code →
    motive (code.withDispatch tables)
  /-- Labels are made. -/
  label : ∀ {code : ModuleCode} (labels : List String), motive code → motive { code with labels }

/-- What lasts is true of all module code after a step if it was before. -/
theorem Lasting.step {motive : ModuleCode → Prop} (h : Lasting motive) (hstep : Step p q)
    (hp : InStep p.engine.memory p) (hcodes : ∀ code ∈ p.codes, motive code) :
    ∀ code ∈ q.codes, motive code := by
  cases hstep with
  | reorder hplaced hperm => exact fun code hin => hcodes code (hperm.mem_iff.mpr hin)
  | place | placeFails | discard | createFails | loadFails | unmap => exact hcodes
  | create hend => exact List.forall_mem_cons.mpr ⟨h.create hend, hcodes⟩
  | load hend =>
    obtain ⟨_, _, _, _, _, -, -, -, hcreate⟩ := ModuleCode.load_eq_ok hend
    exact List.forall_mem_cons.mpr ⟨h.create hcreate, hcodes⟩
  | entry hasks hend hcalm =>
    obtain ⟨hcode, hothers⟩ := List.forall_mem_cons.mp hcodes
    have hrunning : Running.InStep ⟨_, _⟩ _ _ _ := hp
    exact List.forall_mem_cons.mpr ⟨h.entry hrunning hasks hend hcalm hcode, hothers⟩
  | install hend hcalm =>
    obtain ⟨hcode, hothers⟩ := List.forall_mem_cons.mp hcodes
    have hrunning : Running.InStep ⟨_, _⟩ _ _ _ := hp
    exact List.forall_mem_cons.mpr ⟨h.install hrunning hend hcalm hcode, hothers⟩
  | dispatch =>
    obtain ⟨hcode, hothers⟩ := List.forall_mem_cons.mp hcodes
    exact List.forall_mem_cons.mpr ⟨h.dispatch _ hcode, hothers⟩
  | @label engine placed codes code wanted =>
    obtain ⟨hcode, hothers⟩ := List.forall_mem_cons.mp hcodes
    obtain ⟨labels, hlabels⟩ := ModuleCode.exists_ensureLabels_eq code wanted
    rw [hlabels]
    exact List.forall_mem_cons.mpr ⟨h.label labels hcode, hothers⟩
  | drop => exact (List.forall_mem_cons.mp hcodes).2

/-- What lasts is true of all module code at all times. -/
theorem Lasting.holds {motive : ModuleCode → Prop} (h : Lasting motive) (hreach : Reachable p) :
    ∀ code ∈ p.codes, motive code := by
  induction hreach with
  | start => exact List.forall_mem_nil _
  | step hrun hstep ih => exact h.step hstep hrun.inStep ih

end Process

/-- A block contains the addresses that it is registered for. -/
theorem Block.contains_iff_holds (block : Block) (pc : Nat) :
    block.contains pc = true ↔ Region.Holds block pc := by
  simp [Block.contains, Region.Holds, Region.start, Region.stop]

/-- A block that contains an address holds code. -/
theorem Block.isEmpty_of_contains {block : Block} {pc : Nat} (h : block.contains pc = true) :
    block.isEmpty = false := by
  simp only [contains, Bool.and_eq_true, decide_eq_true_eq] at h
  rw [isEmpty, beq_eq_false_iff_ne]
  omega

/-- Blocks that lie apart do not both contain an address. -/
theorem Block.ClearOf.not_contains {a b : Block} {pc : Nat} (h : a.ClearOf b)
    (ha : a.contains pc = true) : b.contains pc = false := by
  refine Bool.eq_false_iff.mpr fun hb => ?_
  have hapart := h.apart (isEmpty_of_contains ha) (isEmpty_of_contains hb)
  simp only [contains, Bool.and_eq_true, decide_eq_true_eq] at ha hb
  simp only [Apart] at hapart
  omega

namespace Process

variable {p : Process}

/-- A lookup in a module finds the block of that module that contains the address, if any does. -/
theorem InStep.blockAt?_eq_some_iff {since : Memory} (h : InStep since p) {code : ModuleCode}
    (hcode : code ∈ p.codes) (pc : Nat) (block : Block) :
    code.blockAt? pc = some block ↔ block ∈ code.blocks ∧ block.contains pc = true := by
  rw [ModuleCode.blockAt?, (h.maps code hcode).lookup_eq_some_iff, mem_filled,
    ← Block.contains_iff_holds, and_assoc]
  exact and_congr_right fun _ => and_iff_right_of_imp Block.isEmpty_of_contains

/-- A lookup in the registry finds the block of any module that contains the address. -/
theorem InStep.lookup_eq_some_iff {since : Memory} (h : InStep since p) (pc : Nat) (block : Block) :
    p.engine.registry.lookup pc = some block ↔ block ∈ p.blocks ∧ block.contains pc = true := by
  rw [h.registry.lookup_eq_some_iff, mem_filled, ← Block.contains_iff_holds, and_assoc]
  exact and_congr_right fun _ => and_iff_right_of_imp Block.isEmpty_of_contains

/-- No two blocks that are owned contain one address, not even one block that is owned twice. -/
theorem InStep.length_filter_contains_le {since : Memory} (h : InStep since p) (pc : Nat) :
    (p.blocks.filter (·.contains pc)).length ≤ 1 := by
  have hclear : (p.blocks.filter (·.contains pc)).Pairwise Block.ClearOf :=
    (h.clear.sublist (List.sublist_append_right _ _)).sublist List.filter_sublist
  cases hblocks : p.blocks.filter (·.contains pc) with
  | nil => exact Nat.zero_le 1
  | cons a rest =>
    cases rest with
    | nil => exact Nat.le_refl 1
    | cons b more =>
      have hcontains : ∀ block ∈ a :: b :: more, block.contains pc = true := by
        rw [← hblocks]
        exact fun block hin => (List.mem_filter.mp hin).2
      rw [hblocks] at hclear
      have hfalse := ((List.pairwise_cons.mp hclear).1 b List.mem_cons_self).not_contains
        (hcontains a List.mem_cons_self)
      rw [hcontains b (List.mem_cons_of_mem a List.mem_cons_self)] at hfalse
      contradiction

/-- At any time, at most one block that a module owns contains an address. A lookup in a module
finds it there, a lookup in the registry finds it wherever it is, and the latter pairs it with its
code range. -/
theorem lookups_find_owned_blocks (h : Reachable p) (pc : Nat) :
    (p.blocks.filter (·.contains pc)).length ≤ 1 ∧
    (∀ code ∈ p.codes, ∀ block,
      code.blockAt? pc = some block ↔ block ∈ code.blocks ∧ block.contains pc = true) ∧
    (∀ block, p.engine.registry.lookup pc = some block ↔
      ∃ code ∈ p.codes, code.blockAt? pc = some block) ∧
    (p.engine.isCode pc = true ↔ ∃ code ∈ p.codes, (code.blockAt? pc).isSome = true) ∧
    p.engine.registry.lookupRange pc =
      (p.engine.registry.lookup pc).map fun block => (block, block.range? pc) := by
  have hstep := h.inStep
  have hregistry : ∀ block, p.engine.registry.lookup pc = some block ↔
      ∃ code ∈ p.codes, code.blockAt? pc = some block := by
    intro block
    rw [hstep.lookup_eq_some_iff, blocks, List.mem_flatMap]
    constructor
    · rintro ⟨⟨code, hcode, hblock⟩, hcontains⟩
      exact ⟨code, hcode, (hstep.blockAt?_eq_some_iff hcode pc block).mpr ⟨hblock, hcontains⟩⟩
    · rintro ⟨code, hcode, hfound⟩
      have hblock := (hstep.blockAt?_eq_some_iff hcode pc block).mp hfound
      exact ⟨⟨code, hcode, hblock.1⟩, hblock.2⟩
  refine ⟨hstep.length_filter_contains_le pc, fun code hcode => hstep.blockAt?_eq_some_iff hcode pc,
    hregistry, ?_, rfl⟩
  simp only [Engine.isCode, Option.isSome_iff_exists, hregistry]
  constructor
  · rintro ⟨block, code, hcode, hfound⟩
    exact ⟨code, hcode, block, hfound⟩
  · rintro ⟨code, hcode, block, hfound⟩
    exact ⟨block, code, hcode, hfound⟩

end Process

/-- Shared stubs without any code. -/
def CompiledBlock.noStubs : CompiledBlock where
  kind := .sharedStubs
  code := []
  tables := {}

/-- The address in the code of a tier with one function. -/
def PatchPlan.oneFunction : PatchPlan where
  internal := [{ site := 0, target := 0 }]

/-- A saved module with one function. -/
def Image.oneFunction : Image where
  settings := {}
  imports := []
  moduleName := ""
  funcNames := []
  sharedStubs := .noStubs
  sharedPlan := {}
  tier := .oneFunction
  tierPlan := .oneFunction

/-- A module with one function can be loaded, and its code is found. -/
theorem load_oneFunction :
    ∃ code engine, ModuleCode.load {} .empty Image.oneFunction.toBytes {} = .ok code engine ∧
      engine.isCode 0x200000000000 = true := by
  have hends : (ModuleCode.load {} .empty Image.oneFunction.toBytes).succeeds {}
      (fun _ engine => engine.isCode 0x200000000000) = true := by decide +kernel
  exact Op.exists_of_succeeds hends

namespace Process

/-- Memory that has never been used is sound. -/
theorem reachable_start : Reachable {} :=
  .start (Memory.sound_of_mapped_eq_nil (Nat.le_refl _) rfl) RegionMap.settled_empty

/-- The one block with code of a module that has been loaded is found by its first address. -/
theorem lookups_find_owned_blocks_once_loaded :
    ∃ p : Process, Reachable p ∧ p.engine.isCode 0x200000000000 = true ∧
      ∃ code ∈ p.codes, (code.blockAt? 0x200000000000).isSome = true := by
  obtain ⟨code, engine, hload, hfound⟩ := load_oneFunction
  have hloaded := reachable_start.step (.load hload)
  exact ⟨_, hloaded, hfound, (lookups_find_owned_blocks hloaded _).2.2.2.1.mp hfound⟩

end Process

end CompiledCode

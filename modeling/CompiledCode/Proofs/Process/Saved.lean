import CompiledCode.Proofs.Image.Codec
import CompiledCode.Proofs.Image.Saved
import CompiledCode.Proofs.ModuleCode.Failure
import CompiledCode.Proofs.Process.Run

/-!
# Images do not depend on addresses

Code is placed at some address, becomes part of a module, and stays as it is whatever the module is
asked for and whatever else happens in the process. So two modules that were made from the same
compiled code have the same image, at whatever addresses their blocks are, whatever the runtime
symbols were and however many entry stubs were made on demand. A module that is loaded from an image
is made from the code that the image holds, and has that image again.
-/

namespace CompiledCode

namespace ModuleCode

/-- Whether code has gone on as a module with the same fixed parts and no block less. -/
structure Becomes (before after : ModuleCode) : Prop where
  settings : after.settings = before.settings
  imports : after.imports = before.imports
  moduleName : after.moduleName = before.moduleName
  funcNames : after.funcNames = before.funcNames
  sharedStubs : after.sharedStubs = before.sharedStubs
  tier1 : after.tier1 = before.tier1
  blocks : ∀ block ∈ before.blocks, block ∈ after.blocks

variable {compiler : StubCompiler} {before after : ModuleCode}

theorem Becomes.refl (code : ModuleCode) : code.Becomes code :=
  ⟨rfl, rfl, rfl, rfl, rfl, rfl, fun _ hin => hin⟩

/-- What has gone on goes on. -/
theorem Becomes.trans {last : ModuleCode} (h : before.Becomes after) (hlast : after.Becomes last) :
    before.Becomes last where
  settings := hlast.settings.trans h.settings
  imports := hlast.imports.trans h.imports
  moduleName := hlast.moduleName.trans h.moduleName
  funcNames := hlast.funcNames.trans h.funcNames
  sharedStubs := hlast.sharedStubs.trans h.sharedStubs
  tier1 := hlast.tier1.trans h.tier1
  blocks block hin := hlast.blocks block (h.blocks block hin)

/-- Code goes on when blocks, stubs and dispatch tables are added. -/
theorem Becomes.of_content {tier2 : OptimizedTier} {calls : List StubCall} {more : List Block}
    {lazyExports : List LazyExport} {dispatch : DispatchTables}
    (h : after.content = { before.content with
      tier2, blocks := before.blocks ++ more, calls, lazyExports, dispatch }) :
    before.Becomes after where
  settings := (congrArg ModuleCode.settings h :)
  imports := (congrArg ModuleCode.imports h :)
  moduleName := (congrArg ModuleCode.moduleName h :)
  funcNames := (congrArg ModuleCode.funcNames h :)
  sharedStubs := (congrArg ModuleCode.sharedStubs h :)
  tier1 := (congrArg ModuleCode.tier1 h :)
  blocks block hin := by
    have hblocks : after.blocks = before.blocks ++ more := (congrArg ModuleCode.blocks h :)
    rw [hblocks]
    exact List.mem_append_left _ hin

/-- Code goes on when it is enlarged. -/
theorem Enlarged.becomes (h : before.Enlarged compiler after) : before.Becomes after := by
  obtain ⟨calls, tier2, more, lazyExports, dispatch, -, hcontent⟩ := h
  exact .of_content hcontent

end ModuleCode

/-- A block bears the same compiled code when it is bound. -/
theorem Memory.Bears.rebound {memory : Memory} {block other : Block} {compiled : CompiledBlock}
    {plan : PatchPlan} (h : memory.Bears block compiled plan) (hsame : block.Rebound other) :
    memory.Bears other compiled plan := by
  obtain ⟨owner, serial, rfl⟩ := hsame
  exact { h with }

namespace Source

variable {source : Source} {code code' : ModuleCode}

/-- A module that goes on is made from what it was made from, as long as its blocks bear what they
bore and its optimized tier bears what that was compiled to. -/
theorem Describes.becomes {memory later : Memory} (h : source.Describes memory code)
    (hbecomes : code.Becomes code')
    (hstays : ∀ block ∈ code.blocks, ∀ compiled plan, memory.Bears block compiled plan →
      later.Bears block compiled plan)
    (hoptimized : ∀ tier2, code'.tier2.block? = some tier2 → tier2 ∈ code'.blocks ∧
      later.Bears tier2 source.optimized source.optimizedPlan) : source.Describes later code' where
  settings := hbecomes.settings.trans h.settings
  imports := hbecomes.imports.trans h.imports
  moduleName := hbecomes.moduleName.trans h.moduleName
  funcNames := hbecomes.funcNames.trans h.funcNames
  tierKind := h.tierKind
  owned := by
    rw [hbecomes.sharedStubs, hbecomes.tier1]
    exact ⟨hbecomes.blocks _ h.owned.1, hbecomes.blocks _ h.owned.2.1,
      fun tier2 hpublished => (hoptimized tier2 hpublished).1⟩
  sharedStubs := hbecomes.sharedStubs ▸ hstays _ h.owned.1 _ _ h.sharedStubs
  tier1 := hbecomes.tier1 ▸ hstays _ h.owned.2.1 _ _ h.tier1
  optimized tier2 hpublished := (hoptimized tier2 hpublished).2

end Source

namespace Process

variable {p q : Process} {code code' : ModuleCode} {codes : List ModuleCode} {source : Source}

/-- What a step can do to a module while the other modules stay as they are. -/
inductive Affects : Process → Process → ModuleCode → ModuleCode → Prop where
  /-- The module stays as it is. -/
  | nothing {p q : Process} {code : ModuleCode} : Affects p q code code
  /-- An entry is asked for. -/
  | entry {engine : Engine} {placed : List Block} {codes : List ModuleCode} {code : ModuleCode}
      {compiler : StubCompiler} {func : Nat} {result : Except Fault (FuncExport × Nat)} {t : Running}
      (hend : (Running.interpEntry compiler func).ending { engine, code } = (result, t))
      (hcalm : ∀ violation, result ≠ .error (.violation violation)) :
    Affects { engine, placed, codes := code :: codes }
      { engine := t.engine, placed, codes := t.code :: codes } code t.code
  /-- An optimized tier is installed, refused or given up. -/
  | install {engine : Engine} {placed : List Block} {codes : List ModuleCode} {code : ModuleCode}
      {compiler : StubCompiler} {plan : PatchPlan} {compiled : CompiledBlock}
      {result : Except Fault Unit} {t : Running}
      (hend : (Running.installOptimized compiler plan compiled).ending { engine, code } = (result, t))
      (hcalm : ∀ violation, result ≠ .error (.violation violation)) :
    Affects { engine, placed, codes := code :: codes }
      { engine := t.engine, placed, codes := t.code :: codes } code t.code
  /-- Other parts of the runtime fill the dispatch tables. -/
  | dispatch {p q : Process} {code : ModuleCode} {tables : DispatchTables} :
    Affects p q code (code.withDispatch tables)
  /-- Labels for profilers are made. -/
  | label {p q : Process} {code : ModuleCode} {labels : List String} :
    Affects p q code { code with labels }

/-- Whatever happens to a module while the others stay as they are is one of these. -/
theorem Step.affects (hstep : Step p q) (hp : p.codes = code :: codes) (hq : q.codes = code' :: codes) :
    Affects p q code code' := by
  have hsame : code :: codes = code' :: codes → Affects p q code code' := by
    intro h
    rw [← (List.cons.inj h).1]
    exact .nothing
  have hlonger : ∀ {other : ModuleCode}, codes ≠ other :: codes :=
    fun h => absurd (congrArg List.length h) (by simp)
  cases hstep with
  | reorder hplaced hcodes =>
    dsimp only at hp hq
    rw [hp, hq] at hcodes
    have hsingle : [code].Perm [code'] := (List.perm_append_right_iff codes).mp hcodes
    rw [List.singleton_perm_singleton.mp hsingle]
    exact .nothing
  | place | placeFails | discard | createFails | loadFails | unmap => exact hsame (hp.symm.trans hq)
  | create | load =>
    dsimp only at hp hq
    exact absurd ((List.cons.inj hq).2.symm.trans hp) hlonger
  | entry hasks hend hcalm =>
    obtain ⟨rfl, rfl⟩ := List.cons.inj hp
    obtain ⟨rfl, -⟩ := List.cons.inj hq
    exact .entry hend hcalm
  | install hend hcalm =>
    obtain ⟨rfl, rfl⟩ := List.cons.inj hp
    obtain ⟨rfl, -⟩ := List.cons.inj hq
    exact .install hend hcalm
  | dispatch =>
    obtain ⟨rfl, rfl⟩ := List.cons.inj hp
    obtain ⟨rfl, -⟩ := List.cons.inj hq
    exact .dispatch
  | @label engine placed codes' own wanted =>
    obtain ⟨rfl, rfl⟩ := List.cons.inj hp
    obtain ⟨rfl, -⟩ := List.cons.inj hq
    obtain ⟨labels, hlabels⟩ := ModuleCode.exists_ensureLabels_eq own wanted
    rw [hlabels]
    exact .label
  | drop =>
    dsimp only at hp hq
    exact absurd ((List.cons.inj hp).2.symm.trans hq) hlonger

/-- Whatever happens to a module while the others stay as they are, it goes on. -/
theorem Step.becomes (hstep : Step p q) (hp : p.codes = code :: codes) (hq : q.codes = code' :: codes) :
    code.Becomes code' := by
  cases hstep.affects hp hq with
  | nothing => exact .refl code
  | dispatch | label => exact ⟨rfl, rfl, rfl, rfl, rfl, rfl, fun _ hin => hin⟩
  | @entry _ _ _ _ compiler func result t hend hcalm =>
    have hafter := (Running.interpEntry_enlarged func).ending hend
    cases result with
    | ok found => exact hafter.becomes
    | error fault =>
      cases fault with
      | violation violation => exact absurd rfl (hcalm violation)
      | failure failure => exact (hafter rfl).enlarged.becomes
  | @install _ _ _ _ compiler plan compiled result t hend hcalm =>
    have hafter := (Running.installOptimized_enlarged plan compiled).ending hend
    cases result with
    | ok done =>
      obtain ⟨tier2, calls, more, lazyExports, dispatch, hcontent⟩ := hafter
      exact .of_content hcontent
    | error fault =>
      cases fault with
      | violation violation => exact absurd rfl (hcalm violation)
      | failure failure =>
        obtain ⟨-, rfl⟩ | ⟨-, calls, hcontent⟩ := hafter rfl
        · exact .refl _
        · have hmarked : code.Marked compiler t.code := ⟨calls, code.tier2, .inl rfl, hcontent⟩
          exact hmarked.enlarged.becomes

/-- Whether a block that waits in a process holds compiled code that was placed there after a plan. -/
inductive Placed (compiled : CompiledBlock) (plan : PatchPlan) : Process → Block → Prop where
  /-- The code is placed, at whatever address. -/
  | place {p : Process} {symbols : SymbolTable} {shared : Option Block} {block : Block}
      {after : Engine} (hreach : Reachable p)
      (hend : Engine.onMemory (Block.place compiled plan symbols shared) p.engine = .ok block after) :
    Placed compiled plan { p with engine := after, placed := block :: p.placed } block
  /-- Something else happens, and the block still waits. -/
  | step {p q : Process} {block : Block} (hplaced : Placed compiled plan p block) (hstep : Step p q)
      (hin : block ∈ q.placed) : Placed compiled plan q block

/-- Whether the code of a module in a process was made from a source. -/
inductive Built (source : Source) : Process → ModuleCode → Prop where
  /-- The code is created from blocks that hold what was compiled. -/
  | create {engine after : Engine} {parts : ModuleParts} {placed : List Block}
      {codes : List ModuleCode} {symbols : SymbolTable} {code : ModuleCode}
      (hshared : Placed source.sharedStubs source.sharedPlan
        { engine, placed := parts.sharedStubs :: parts.tier1 :: placed, codes } parts.sharedStubs)
      (htier1 : Placed source.tier1 source.tier1Plan
        { engine, placed := parts.sharedStubs :: parts.tier1 :: placed, codes } parts.tier1)
      (himports : parts.imports = source.imports) (hmodule : parts.moduleName = source.moduleName)
      (hfuncs : parts.funcNames = source.funcNames)
      (hend : ModuleCode.create source.settings symbols parts engine = .ok code after) :
    Built source { engine := after, placed, codes := code :: codes } code
  /-- The optimized tier is installed. -/
  | install {engine : Engine} {placed : List Block} {codes : List ModuleCode} {code : ModuleCode}
      {compiler : StubCompiler} {t : Running}
      (hbuilt : Built source { engine, placed, codes := code :: codes } code)
      (hend : Running.installOptimized compiler source.optimizedPlan source.optimized
        { engine, code } = .ok () t) :
    Built source { engine := t.engine, placed, codes := t.code :: codes } t.code
  /-- The module is asked for something else, such as entries, which publishes no tier. -/
  | own {p q : Process} {code code' : ModuleCode} {codes : List ModuleCode}
      (hbuilt : Built source p code) (hstep : Step p q) (hp : p.codes = code :: codes)
      (hq : q.codes = code' :: codes) (htier2 : code'.tier2.block? = code.tier2.block?) :
    Built source q code'
  /-- Something else happens in the process. -/
  | other {p q : Process} {code : ModuleCode} (hbuilt : Built source p code) (hstep : Step p q)
      (hin : code ∈ q.codes) : Built source q code

/-- A block that was placed waits for its module and bears what was compiled. -/
theorem Placed.bears {compiled : CompiledBlock} {plan : PatchPlan} {block : Block}
    (h : Placed compiled plan p block) :
    Reachable p ∧ block ∈ p.placed ∧ p.engine.memory.Bears block compiled plan := by
  induction h with
  | place hreach hend =>
    exact ⟨hreach.step (.place hend), List.mem_cons_self,
      ((ModuleCode.place_inStep hreach.inStep ..).of_ok hend).2.1⟩
  | step _ hstep hin ih =>
    obtain ⟨hreach, hbefore, hbears⟩ := ih
    exact ⟨hreach.step hstep, hin, hstep.bears hreach.inStep (List.mem_append_left _ hbefore) hbears⟩

/-- A block of a module is held by the process of the module. -/
theorem mem_held {block : Block} (hcode : code ∈ p.codes) (hblock : block ∈ code.blocks) :
    block ∈ p.held :=
  List.mem_append_right _ (List.mem_flatMap.mpr ⟨code, hcode, hblock⟩)

/-- What a module was made from stays the same whatever happens next. -/
theorem Step.describes (hstep : Step p q) (h : InStep p.engine.memory p) (hcode : code ∈ p.codes)
    (hdescribes : source.Describes p.engine.memory code) (hbecomes : code.Becomes code')
    (htier2 : code'.tier2.block? = code.tier2.block?) : source.Describes q.engine.memory code' := by
  have hstays : ∀ block ∈ code.blocks, ∀ compiled plan, p.engine.memory.Bears block compiled plan →
      q.engine.memory.Bears block compiled plan :=
    fun _ hin _ _ => hstep.bears h (mem_held hcode hin)
  refine hdescribes.becomes hbecomes hstays fun tier2 hpublished => ?_
  rw [htier2] at hpublished
  have hin := hdescribes.owned.2.2 tier2 hpublished
  exact ⟨hbecomes.blocks _ hin, hstays _ hin _ _ (hdescribes.optimized tier2 hpublished)⟩

/-- A module that is created from blocks is made from what they bear. -/
theorem describes_of_create {engine after : Engine} {parts : ModuleParts} {placed : List Block}
    {symbols : SymbolTable}
    (h : InStep engine.memory { engine, placed := parts.sharedStubs :: parts.tier1 :: placed, codes })
    (hshared : engine.memory.Bears parts.sharedStubs source.sharedStubs source.sharedPlan)
    (htier1 : engine.memory.Bears parts.tier1 source.tier1 source.tier1Plan)
    (himports : parts.imports = source.imports) (hmodule : parts.moduleName = source.moduleName)
    (hfuncs : parts.funcNames = source.funcNames)
    (hend : ModuleCode.create source.settings symbols parts engine = .ok code after) :
    source.Describes after.memory code := by
  have hafter := (ModuleCode.create_inStep source.settings symbols h).of_ok hend
  have hcreated := (ModuleCode.create_content ..).of_ok hend
  obtain ⟨number, sharedSerial, tierSerial, labels, hcontent⟩ := hcreated.content
  obtain ⟨hblocks, hbound, hbound'⟩ := hcreated.blocks
  have htier2 : code.tier2 = .absent := (congrArg ModuleCode.tier2 hcontent :)
  have hkept := hshared.keeps (h.hosted _ List.mem_cons_self) hafter.kept
  have hkept' := htier1.keeps (h.hosted _ (List.mem_cons_of_mem _ List.mem_cons_self)) hafter.kept
  refine
    { settings := (congrArg ModuleCode.settings hcontent :)
      imports := Eq.trans (congrArg ModuleCode.imports hcontent :) himports
      moduleName := Eq.trans (congrArg ModuleCode.moduleName hcontent :) hmodule
      funcNames := Eq.trans (congrArg ModuleCode.funcNames hcontent :) hfuncs
      tierKind := htier1.kind ▸ hcreated.tierKind
      owned := ?_
      sharedStubs := hkept.rebound hbound
      tier1 := hkept'.rebound hbound'
      optimized := ?_ }
  · rw [hblocks, htier2]
    exact ⟨List.mem_cons_self, List.mem_cons_of_mem _ List.mem_cons_self, nofun⟩
  · rw [htier2]
    exact nofun

/-- A module whose optimized tier is installed is made from what that tier was compiled to as well. -/
theorem describes_of_install {engine : Engine} {placed : List Block} {compiler : StubCompiler}
    {t : Running} (h : InStep engine.memory { engine, placed, codes := code :: codes })
    (hdescribes : source.Describes engine.memory code)
    (hend : Running.installOptimized compiler source.optimizedPlan source.optimized
      { engine, code } = .ok () t) : source.Describes t.engine.memory t.code := by
  have hrunning : Running.InStep { engine, code } engine.memory placed codes := h
  obtain ⟨hafter, tier2, htier2, hbears⟩ :=
    (Running.installOptimized_inStep hrunning _ _).of_ok hend
  obtain ⟨published, calls, more, lazyExports, dispatch, hcontent⟩ :=
    (Running.installOptimized_enlarged _ _).of_ok hend
  have hbecomes : code.Becomes t.code := .of_content hcontent
  have hsame : t.code.tier2 = .published published := (congrArg ModuleCode.tier2 hcontent :)
  obtain rfl : tier2 = published := OptimizedTier.published.inj (htier2.symm.trans hsame)
  have hblocks : t.code.blocks = code.blocks ++ tier2 :: more :=
    (congrArg ModuleCode.blocks hcontent :)
  refine hdescribes.becomes hbecomes (fun block hin _ _ hblock =>
    hblock.keeps (h.hosted _ (mem_held List.mem_cons_self hin)) hafter.kept) fun block hblock => ?_
  rw [htier2] at hblock
  obtain rfl := Option.some.inj hblock
  rw [hblocks]
  exact ⟨List.mem_append_right _ List.mem_cons_self, hbears⟩

/-- An install that succeeds is a step of the process. -/
theorem Step.of_install {engine : Engine} {placed : List Block} {compiler : StubCompiler}
    {plan : PatchPlan} {compiled : CompiledBlock} {t : Running}
    (hend : Running.installOptimized compiler plan compiled { engine, code } = .ok () t) :
    Step { engine, placed, codes := code :: codes }
      { engine := t.engine, placed, codes := t.code :: codes } :=
  .install (Op.ending_of_ok hend) (by rintro _ ⟨⟩)

/-- A module is made from its source at any time. -/
theorem Built.describes (h : Built source p code) :
    Reachable p ∧ code ∈ p.codes ∧ source.Describes p.engine.memory code := by
  induction h with
  | create hshared htier1 himports hmodule hfuncs hend =>
    obtain ⟨hreach, -, hbears⟩ := hshared.bears
    exact ⟨hreach.step (.create hend), List.mem_cons_self,
      describes_of_create hreach.inStep hbears htier1.bears.2.2 himports hmodule hfuncs hend⟩
  | @install engine placed codes code compiler t hbuilt hend ih =>
    obtain ⟨hreach, -, hdescribes⟩ := ih
    exact ⟨hreach.step (.of_install hend), List.mem_cons_self,
      describes_of_install hreach.inStep hdescribes hend⟩
  | own hbuilt hstep hp hq htier2 ih =>
    obtain ⟨hreach, hin, hdescribes⟩ := ih
    refine ⟨hreach.step hstep, hq ▸ List.mem_cons_self, ?_⟩
    exact hstep.describes hreach.inStep hin hdescribes (hstep.becomes hp hq) htier2
  | other hbuilt hstep hin ih =>
    obtain ⟨hreach, hbefore, hdescribes⟩ := ih
    exact ⟨hreach.step hstep, hin,
      hstep.describes hreach.inStep hbefore hdescribes (.refl _) rfl⟩

/-- A module that a host loads from an image is made from it, with the settings of the host. -/
theorem Reachable.built_of_load_in (h : Reachable p) (image : Image) {host : Settings}
    {symbols : SymbolTable} {after : Engine} (optimized : CompiledBlock) (optimizedPlan : PatchPlan)
    (hend : ModuleCode.load host symbols image.toBytes p.engine = .ok code after) :
    Built { image.source optimized optimizedPlan with settings := host }
      { p with engine := after, codes := code :: p.codes } code := by
  obtain ⟨other, sharedStubs, tier1, middle, last, hread, hshared, htier1, hcreate⟩ :=
    ModuleCode.load_eq_ok hend
  obtain rfl := Image.eq_of_ofBytes_toBytes hread
  have hwaits := h.step (.place hshared)
  have hswap : Step
      { engine := last, placed := tier1 :: sharedStubs :: p.placed, codes := p.codes }
      { engine := last, placed := sharedStubs :: tier1 :: p.placed, codes := p.codes } :=
    .reorder (List.Perm.swap ..) (List.Perm.refl _)
  refine .create ?_ ?_ ?_ ?_ ?_ hcreate
  · exact .step (.step (.place h hshared) (.place htier1)
      (List.mem_cons_of_mem _ List.mem_cons_self)) hswap List.mem_cons_self
  · exact .step (.place hwaits htier1) hswap (List.mem_cons_of_mem _ List.mem_cons_self)
  · rfl
  · rfl
  · rfl

/-- A module that is loaded from an image is made from it. -/
theorem Reachable.built_of_load (h : Reachable p) (image : Image) {symbols : SymbolTable}
    {after : Engine} (optimized : CompiledBlock) (optimizedPlan : PatchPlan)
    (hend : ModuleCode.load image.settings symbols image.toBytes p.engine = .ok code after) :
    Built (image.source optimized optimizedPlan) { p with engine := after, codes := code :: p.codes }
      code :=
  h.built_of_load_in image optimized optimizedPlan hend

/-- Modules that are made from the same code have the same image, and the image of a module that is
made from an image is that one. -/
theorem images_are_reproducible :
    (∀ (source : Source) (p q : Process) (c d : ModuleCode) (tier : Tier),
      Built source p c → Built source q d → c.hasTier tier = .ok true → d.hasTier tier = .ok true →
        ∃ image, c.image p.engine.memory source.sharedPlan tier (source.plan tier) = .ok image ∧
          d.image q.engine.memory source.sharedPlan tier (source.plan tier) = .ok image) ∧
    ∀ (c : ModuleCode) (memory : Memory) (sharedPlan : PatchPlan) (tier : Tier) (tierPlan : PatchPlan)
      (image : Image), c.image memory sharedPlan tier tierPlan = .ok image →
        ∀ (optimized : CompiledBlock) (optimizedPlan : PatchPlan),
          (∀ (p : Process) (symbols : SymbolTable) (d : ModuleCode) (after : Engine), Reachable p →
            ModuleCode.load image.settings symbols image.toBytes p.engine = .ok d after →
              Built (image.source optimized optimizedPlan)
                { p with engine := after, codes := d :: p.codes } d) ∧
          ∀ (q : Process) (d : ModuleCode), Built (image.source optimized optimizedPlan) q d →
            ∃ first, d.stableTier = .ok first ∧
              d.image q.engine.memory sharedPlan first tierPlan = .ok image := by
  constructor
  · intro source p q c d tier hc hd htier htier'
    exact ⟨source.image tier, hc.describes.2.2.image htier, hd.describes.2.2.image htier'⟩
  · intro c memory sharedPlan tier tierPlan image hsaved optimized optimizedPlan
    obtain ⟨rfl, rfl, hshared, htier⟩ := ModuleCode.erased_of_image hsaved
    refine ⟨fun p symbols d after hreach hend => hreach.built_of_load image optimized optimizedPlan hend,
      fun q d hbuilt => ?_⟩
    obtain ⟨-, -, hdescribes⟩ := hbuilt.describes
    obtain ⟨first, hfirst, havailable, hkind⟩ := hdescribes.exists_stableTier
    have hplan : (image.source optimized optimizedPlan).plan first = image.tierPlan := if_pos hkind
    have hagain := hdescribes.image havailable
    rw [hplan, Image.image_source hshared htier hkind] at hagain
    exact ⟨first, hfirst, hagain⟩

end Process

/-- Code memory that puts the first mapping at another address than usual. -/
def Memory.elsewhere : Memory where
  sites := [0x300000000000]

/-- A module with one function can be loaded at two addresses. -/
theorem load_oneFunction_twice :
    ∃ c d engine engine',
      ModuleCode.load {} .empty Image.oneFunction.toBytes {} = .ok c engine ∧
      ModuleCode.load {} .empty Image.oneFunction.toBytes { memory := .elsewhere } = .ok d engine' ∧
      c.hasTier .baseline = .ok true ∧ d.hasTier .baseline = .ok true ∧
      engine.memory.read c.tier1.base 9 ≠ engine'.memory.read d.tier1.base 9 := by
  have hends : (ModuleCode.load {} .empty Image.oneFunction.toBytes).succeeds {} (fun c engine =>
      (ModuleCode.load {} .empty Image.oneFunction.toBytes).succeeds { memory := .elsewhere }
        (fun d engine' =>
          decide (c.tier1.kind.tier? = some .baseline ∧ d.tier1.kind.tier? = some .baseline ∧
            engine.memory.read c.tier1.base 9 ≠ engine'.memory.read d.tier1.base 9))) = true := by
    decide +kernel
  have hbaseline : ∀ {code : ModuleCode}, code.tier1.kind.tier? = some .baseline →
      code.hasTier .baseline = .ok true := by
    intro code hkind
    rw [ModuleCode.hasTier, Block.tier_eq_ok_iff.mpr hkind]
    rfl
  obtain ⟨c, engine, hload, hagain⟩ := Op.exists_of_succeeds hends
  obtain ⟨d, engine', hload', hkinds⟩ := Op.exists_of_succeeds hagain
  obtain ⟨hkind, hkind', hread⟩ := of_decide_eq_true hkinds
  exact ⟨c, d, engine, engine', hload, hload', hbaseline hkind, hbaseline hkind', hread⟩

namespace Process

/-- A module with one function has the same image at two addresses, although its code differs there,
and the image that it was loaded from is its image again. -/
theorem images_are_reproducible_at_two_addresses :
    ∃ (p q : Process) (c d : ModuleCode),
      Built (Image.oneFunction.source .oneFunction {}) p c ∧
      Built (Image.oneFunction.source .oneFunction {}) q d ∧
      p.engine.memory.read c.tier1.base 9 ≠ q.engine.memory.read d.tier1.base 9 ∧
      c.image p.engine.memory {} .baseline .oneFunction =
        d.image q.engine.memory {} .baseline .oneFunction ∧
      ∃ first, d.stableTier = .ok first ∧
        d.image q.engine.memory {} first .oneFunction = .ok .oneFunction := by
  obtain ⟨c, d, engine, engine', hload, hload', htier, htier', hdiffer⟩ := load_oneFunction_twice
  have hstart : Reachable { engine := { memory := .elsewhere } } :=
    .start (Memory.sound_of_mapped_eq_nil (Nat.le_refl _) rfl) RegionMap.settled_empty
  have hc := reachable_start.built_of_load .oneFunction .oneFunction {} hload
  have hd := hstart.built_of_load .oneFunction .oneFunction {} hload'
  obtain ⟨image, hc', hd'⟩ := images_are_reproducible.1 _ _ _ c d .baseline hc hd htier htier'
  have hsaved : Image.oneFunction = image := by
    have hsource : (Image.oneFunction.source .oneFunction {}).image .baseline = .oneFunction :=
      Image.image_source (by decide) (by decide) rfl _ _
    have hsame := hc.describes.2.2.image htier
    rw [hsource, hc'] at hsame
    exact (Except.ok.inj hsame).symm
  subst hsaved
  exact ⟨_, _, c, d, hc, hd, hdiffer, hc'.trans hd'.symm,
    (images_are_reproducible.2 c _ _ _ _ _ hc' .oneFunction {}).2 _ d hd⟩

end Process

end CompiledCode

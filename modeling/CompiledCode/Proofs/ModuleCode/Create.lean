import CompiledCode.Image.Store
import CompiledCode.ModuleCode.Create
import CompiledCode.Proofs.Block
import CompiledCode.Proofs.ModuleCode.Blocks

/-!
# What new module code starts out with

The code of a module is created without an optimized tier and without any entry stubs, and its
shared stubs and its first tier are its only blocks. Loading places these and creates the code.
-/

namespace CompiledCode

/-- Whether a block is another one that may have been bound since. -/
def Block.Rebound (block other : Block) : Prop :=
  ∃ owner serial, other = { block with owner, serial }

theorem Block.Rebound.refl (block : Block) : block.Rebound block := ⟨block.owner, block.serial, rfl⟩

namespace ModuleCode

/-- An operation on new module code ensures what it ensures of the code in its engine. -/
theorem started_ensures {code : ModuleCode} {engine : Engine} {op : Op Running Unit}
    {onValue : Running → Prop} {onFault : Fault → Running → Prop}
    (h : op.Ensures { engine, code } (fun _ => onValue) onFault) :
    (started code op).Ensures engine (fun code engine => onValue { engine, code })
      (fun fault e => ∃ code, onFault fault { engine := e, code }) := by
  cases hop : op { engine, code } with
  | ok value running =>
    exact (Op.ensures_iff_of_ok (by rw [started, hop])).mpr (h.of_ok hop)
  | error fault running =>
    exact (Op.ensures_iff_of_error (by rw [started, hop])).mpr ⟨_, h.of_error hop⟩

end ModuleCode

/-- The first blocks come one after the other. -/
theorem Running.addFirstBlocks_content {s : Running} (sharedStubs tier1 : Block) :
    (addFirstBlocks sharedStubs tier1).Ensures s
      (fun _ t => t.code.content = (s.code.content.withBlock sharedStubs).withBlock tier1)
      (fun _ _ => True) := by
  refine (addBlock_content sharedStubs).bind (fun _ t ht => ?_) (fun _ _ _ => trivial)
  refine (addBlock_content tier1).bind (fun _ u hu => ?_) (fun _ _ _ => trivial)
  rw [Op.ensures_pure, hu.2, ht.2]

namespace ModuleCode

/-- Making labels changes nothing else. -/
theorem exists_ensureLabels_eq (code : ModuleCode) (wanted : Bool) :
    ∃ labels, code.ensureLabels wanted = { code with labels } := by
  rw [ensureLabels]
  split
  · exact ⟨_, rfl⟩
  · exact ⟨code.labels, rfl⟩

/-- The code of a module as it is made of parts that belong to it under serial numbers. -/
def ofParts (settings : Settings) (symbols : SymbolTable) (parts : ModuleParts)
    (number sharedSerial tierSerial : Nat) (dispatch : DispatchTables) (labels : List String) :
    ModuleCode :=
  let owner := some (.moduleCode number)
  let sharedStubs := { parts.sharedStubs with owner, serial := sharedSerial }
  let tier1 := { parts.tier1 with owner, serial := tierSerial }
  { number, settings, symbols, dispatch, labels, sharedStubs, tier1
    imports := parts.imports
    moduleName := parts.moduleName
    funcNames := parts.funcNames
    blocks := [sharedStubs, tier1] }

/-- Whether the code of a module is what parts are made into that fit together. -/
structure CreatedFrom (settings : Settings) (symbols : SymbolTable) (parts : ModuleParts)
    (code : ModuleCode) : Prop where
  sharedKind : parts.sharedStubs.kind = .sharedStubs
  tierKind : parts.tier1.kind.tier?.isSome = true
  sharedStubs : parts.sharedStubs.Bindable
  tier1 : parts.tier1.Bindable
  dispatch : DispatchTables.ofBlocks settings.mode parts.sharedStubs parts.tier1 = .ok code.dispatch
  content : ∃ number sharedSerial tierSerial labels, code.content =
    ofParts settings symbols parts number sharedSerial tierSerial code.dispatch labels

/-- The shared stubs and the first tier are the only blocks that a module starts out with. -/
theorem CreatedFrom.blocks {settings : Settings} {symbols : SymbolTable} {parts : ModuleParts}
    {code : ModuleCode} (h : CreatedFrom settings symbols parts code) :
    code.blocks = [code.sharedStubs, code.tier1] ∧ parts.sharedStubs.Rebound code.sharedStubs ∧
      parts.tier1.Rebound code.tier1 := by
  obtain ⟨number, sharedSerial, tierSerial, labels, hcontent⟩ := h.content
  have hshared : code.sharedStubs =
      { parts.sharedStubs with owner := some (.moduleCode number), serial := sharedSerial } :=
    (congrArg ModuleCode.sharedStubs hcontent :)
  have htier1 : code.tier1 =
      { parts.tier1 with owner := some (.moduleCode number), serial := tierSerial } :=
    (congrArg ModuleCode.tier1 hcontent :)
  refine ⟨?_, ⟨_, _, hshared⟩, ⟨_, _, htier1⟩⟩
  rw [hshared, htier1]
  exact (congrArg ModuleCode.blocks hcontent :)

/-- A module starts out without an optimized tier and without entry stubs. -/
theorem CreatedFrom.fresh {settings : Settings} {symbols : SymbolTable} {parts : ModuleParts}
    {code : ModuleCode} (h : CreatedFrom settings symbols parts code) :
    code.tier2 = .absent ∧ code.lazyExports = [] := by
  obtain ⟨_, _, _, _, hcontent⟩ := h.content
  exact ⟨(congrArg ModuleCode.tier2 hcontent :), (congrArg ModuleCode.lazyExports hcontent :)⟩

/-- The dispatch tables of a new module are filled from its own blocks. -/
theorem CreatedFrom.ofBlocks_eq {settings : Settings} {symbols : SymbolTable} {parts : ModuleParts}
    {code : ModuleCode} (h : CreatedFrom settings symbols parts code) :
    DispatchTables.ofBlocks settings.mode code.sharedStubs code.tier1 = .ok code.dispatch := by
  obtain ⟨-, ⟨_, _, hshared⟩, ⟨_, _, htier1⟩⟩ := h.blocks
  rw [hshared, htier1]
  exact h.dispatch

/-- New module code is made of its parts, with their blocks as its only ones. -/
theorem create_content (settings : Settings) (symbols : SymbolTable) (parts : ModuleParts)
    (engine : Engine) :
    (create settings symbols parts).Ensures engine
      (fun code _ => CreatedFrom settings symbols parts code) (fun _ _ => True) := by
  rw [create, Op.ensures_bind, Op.ensures_require]
  split
  case isFalse => trivial
  rename_i hsharedKind
  rw [Op.ensures_bind, Op.ensures_require]
  split
  case isFalse => trivial
  rename_i hkind
  refine (Op.ensures_true _ _).bind (fun _ e _ => ?_) (fun _ _ _ => trivial)
  rw [Op.ensures_bind, Op.ensures_ofExcept]
  split
  case h_2 => trivial
  rename_i dispatch hdispatch
  rw [Op.ensures_bind, Op.ensures_get, Op.ensures_bind, Op.ensures_modify]
  refine (Engine.bindBlock_ensures ..).bind (fun sharedStubs f hshared => ?_) (fun _ _ _ => trivial)
  refine (Engine.bindBlock_ensures ..).bind (fun tier1 g htier1 => ?_) (fun _ _ _ => trivial)
  rw [Op.ensures_bind, Op.ensures_modify]
  suffices hadded : (do
      Op.onFailure (Running.addFirstBlocks sharedStubs tier1) Running.retire
      Running.change (·.ensureLabels settings.profiling) : Op Running Unit).Ensures
      { engine := { g with owners := e.nextOwner :: g.owners }
        code :=
          { number := e.nextOwner, settings, symbols, dispatch, sharedStubs, tier1
            imports := parts.imports
            moduleName := parts.moduleName
            funcNames := parts.funcNames } }
      (fun _ t => ∃ number sharedSerial tierSerial labels, t.code.content =
        ofParts settings symbols parts number sharedSerial tierSerial dispatch labels)
      (fun _ _ => True) from
    (started_ensures hadded).mono (fun code _ h => by
      obtain ⟨number, sharedSerial, tierSerial, labels, hcontent⟩ := h
      obtain rfl : code.dispatch = dispatch := (congrArg ModuleCode.dispatch hcontent :)
      exact ⟨of_decide_eq_true hsharedKind, hkind, hshared.2.2, htier1.2.2, hdispatch, number,
        sharedSerial, tierSerial, labels, hcontent⟩) (fun _ _ _ => trivial)
  refine ((Running.addFirstBlocks_content sharedStubs tier1).onFailure _).bind (fun _ t ht => ?_)
    (fun _ _ _ => trivial)
  rw [Running.ensures_change]
  dsimp only
  obtain ⟨labels, hlabels⟩ := exists_ensureLabels_eq t.code settings.profiling
  refine ⟨e.nextOwner, e.nextSerial, f.nextSerial, labels, ?_⟩
  have hcontent : ({ t.code with labels } : ModuleCode).content = { t.code.content with labels } := rfl
  rw [hlabels, hcontent, ht, hshared.1, htier1.1]
  rfl

/-- New module code has no optimized tier and no entry stubs. -/
theorem create_ensures (settings : Settings) (symbols : SymbolTable) (parts : ModuleParts)
    (engine : Engine) :
    (create settings symbols parts).Ensures engine
      (fun code _ => code.tier2 = .absent ∧ code.lazyExports = []) (fun _ _ => True) :=
  (create_content settings symbols parts engine).mono (fun _ _ h => h.fresh) (fun _ _ h => h)

/-- Code that is loaded is created from blocks that the code in the image is placed as. -/
theorem load_eq_ok {settings : Settings} {symbols : SymbolTable} {bytes : Bytes}
    {engine after : Engine} {code : ModuleCode} (h : load settings symbols bytes engine = .ok code after) :
    ∃ image sharedStubs tier1 middle last, Image.ofBytes bytes = .ok image ∧
      Engine.onMemory (Block.place image.sharedStubs image.sharedPlan symbols none) engine =
        .ok sharedStubs middle ∧
      Engine.onMemory (Block.place image.tier image.tierPlan symbols (some sharedStubs)) middle =
        .ok tier1 last ∧
      create settings symbols
        { imports := image.imports, sharedStubs, tier1
          moduleName := image.moduleName
          funcNames := image.funcNames } last = .ok code after := by
  rw [load] at h
  cases hread : Image.ofBytes bytes with
  | error fault =>
    rw [hread] at h
    contradiction
  | ok image =>
    rw [hread] at h
    dsimp only at h
    rw [ofImage] at h
    cases hfault : image.fault? settings with
    | some fault =>
      rw [hfault] at h
      contradiction
    | none =>
      rw [hfault] at h
      change EStateM.bind _ _ engine = _ at h
      rw [EStateM.bind] at h
      split at h
      · rename_i sharedStubs middle hshared
        change EStateM.bind _ _ middle = _ at h
        rw [EStateM.bind] at h
        split at h
        · rename_i tier1 last htier
          exact ⟨image, sharedStubs, tier1, middle, last, rfl, hshared, htier, h⟩
        · cases h
      · cases h

end ModuleCode

/-- The pieces of a module with one function, which is exported and one byte long. -/
def ModuleParts.oneFunction : ModuleParts where
  sharedStubs :=
    { kind := .sharedStubs
      segment := { base := Segment.emptyBase, capacity := 0 }
      start := 0, stop := 0
      coverage := {}
      tables := {} }
  tier1 :=
    { kind := .baselineTier
      segment := { base := 0x1000, capacity := 0x1000 }
      start := 0, stop := 1
      coverage := { slots := [some 0] }
      tables :=
        { funcs := { stop := 1 }
          ranges := [{ kind := .function, func := some 0, start := 0, stop := 1, tierEntry := 0 }]
          exports := [{ func := 0, type := 0, eagerEntry := none }] } }

/-- The code of a module with one function. -/
def ModuleCode.oneFunction : ModuleCode :=
  let sharedStubs :=
    { ModuleParts.oneFunction.sharedStubs with owner := some (.moduleCode 0), serial := 1 }
  let tier1 := { ModuleParts.oneFunction.tier1 with owner := some (.moduleCode 0), serial := 2 }
  { number := 0
    settings := {}
    symbols := .empty
    imports := []
    moduleName := ""
    funcNames := []
    sharedStubs, tier1
    blocks := [sharedStubs, tier1]
    blockMap := { left := [.ofRegion tier1], right := [.ofRegion tier1], front := true }
    dispatch := .empty .once 1 }

/-- The engine of a module with one function. -/
def Engine.oneFunction : Engine where
  memory := { growths := 5 }
  registry := ModuleCode.oneFunction.blockMap
  owners := [0]
  nextOwner := 1
  nextSerial := 3

/-- The code of a module with one function is created in a new engine. -/
theorem create_oneFunction :
    ModuleCode.create {} .empty .oneFunction {} = .ok .oneFunction .oneFunction := rfl

/-- A tier with one function, which is exported; its code starts with its own address. -/
def CompiledBlock.oneFunction : CompiledBlock where
  kind := .baselineTier
  code := [0, 0, 0, 0, 0, 0, 0, 0, 0xc3]
  tables :=
    { funcs := { stop := 1 }
      ranges := [{ kind := .function, func := some 0, start := 0, stop := 9, tierEntry := 8 }]
      exports := [{ func := 0, type := 0, eagerEntry := none }] }

/-- An optimized tier with one function. -/
def CompiledBlock.oneFunctionOptimized : CompiledBlock :=
  { CompiledBlock.oneFunction with kind := .optimizedTier }

/-- The pieces of a module with one import and one function, which are both exported. -/
def ModuleParts.oneImport : ModuleParts where
  imports := [0]
  sharedStubs :=
    { kind := .sharedStubs
      segment := { base := 0x1000, capacity := 0x1000 }
      start := 0, stop := 16
      coverage := { slots := [some 0] }
      tables :=
        { funcs := { stop := 1 }
          ranges :=
            [{ kind := .importInterpExit, func := some 0, start := 0, stop := 16, tierEntry := 0 }]
          exports := [{ func := 0, type := 0, eagerEntry := none }] } }
  tier1 :=
    { kind := .baselineTier
      segment := { base := 0x2000, capacity := 0x1000 }
      start := 0, stop := 16
      coverage := { first := 1, slots := [some 0] }
      tables :=
        { funcs := { first := 1, stop := 2 }
          ranges := [{ kind := .function, func := some 1, start := 0, stop := 16, tierEntry := 4 }]
          exports := [{ func := 1, type := 0, eagerEntry := none }] } }

/-- An optimized tier for a module with one import and one function. -/
def CompiledBlock.oneImportOptimized : CompiledBlock where
  kind := .optimizedTier
  code := List.replicate 16 0xc3
  tables :=
    { funcs := { first := 1, stop := 2 }
      ranges := [{ kind := .function, func := some 1, start := 0, stop := 16, tierEntry := 8 }]
      exports := [{ func := 1, type := 0, eagerEntry := none }] }

end CompiledCode

import CompiledCode.ModuleCode.Blocks
import CompiledCode.ModuleCode.Report

/-!
# Creating the code of a module

The code of a module starts out with shared stubs and a first tier, which are
bound to it and registered, and with dispatch tables filled from both. When one of
them cannot be added, the code goes away again.
-/

namespace CompiledCode

/-- The pieces that the code of a module is made of. -/
structure ModuleParts where
  /-- The signatures of the imports. -/
  imports : List Nat := []
  /-- The stubs that every tier shares. -/
  sharedStubs : Block
  /-- The first tier. -/
  tier1 : Block
  /-- The name of the module. -/
  moduleName : String := ""
  /-- The names of functions, by index. -/
  funcNames : List String := []

/-- Adds the blocks that the code of a module starts out with. -/
def Running.addFirstBlocks (sharedStubs tier1 : Block) : Op Running Unit := do
  let _ ← addBlock sharedStubs
  let _ ← addBlock tier1

namespace ModuleCode

/-- Gets room for the dispatch tables of every function of the first blocks. -/
def growDispatchTables (mode : CompileMode) (parts : ModuleParts) : Op Memory Unit := do
  let count := max parts.sharedStubs.tables.funcs.stop parts.tier1.tables.funcs.stop
  if mode = .tiering then
    Memory.grow (8 * count)
  Memory.grow (8 * count)

/-- Runs an operation on new module code, and answers the code as it left it. -/
def started (code : ModuleCode) (op : Op Running Unit) : Op Engine ModuleCode := fun engine =>
  match op { engine, code } with
  | .ok () running => .ok running.code running.engine
  | .error fault running => .error fault running.engine

/-- Creates the code of a module from its parts and registers its blocks. -/
def create (settings : Settings) (symbols : SymbolTable) (parts : ModuleParts) :
    Op Engine ModuleCode := do
  Op.require (parts.sharedStubs.kind = .sharedStubs)
  Op.require parts.tier1.kind.tier?.isSome
  Op.during .allocatingDispatchTables (Engine.onMemory (growDispatchTables settings.mode parts))
  let dispatch ← Op.ofExcept
    (DispatchTables.ofBlocks settings.mode parts.sharedStubs parts.tier1)
  let number := (← get).nextOwner
  modify ({ · with nextOwner := number + 1 })
  let sharedStubs ← Engine.bindBlock number parts.sharedStubs
  let tier1 ← Engine.bindBlock number parts.tier1
  modify fun engine => { engine with owners := number :: engine.owners }
  let code : ModuleCode :=
    { number, settings, symbols, dispatch, sharedStubs, tier1
      imports := parts.imports
      moduleName := parts.moduleName
      funcNames := parts.funcNames }
  started code do
    Op.onFailure (Running.addFirstBlocks sharedStubs tier1) Running.retire
    Running.change (·.ensureLabels settings.profiling)

end ModuleCode

end CompiledCode

import CompiledCode.Block.Lookup
import CompiledCode.Dispatch
import CompiledCode.RegionMap.Basic
import CompiledCode.Settings.Basic
import CompiledCode.Stubs.Basic

/-!
# The code of a module and the engine around it

The code of one module consists of its blocks, indexes over them and dispatch
tables. The engine holds what all modules share: code memory, the registry of
blocks that signal handlers consult, and which owners are alive. Operations on
the code of a module run on both together.
-/

namespace CompiledCode

/-- Blocks are the regions that maps of code hold. -/
instance : Region Block where
  start := Block.base
  stop block := block.base + block.length
  identity := Block.serial
  rangeAt := Block.range?

/-- What all modules of an engine share. -/
structure Engine where
  /-- Code memory. -/
  memory : Memory := {}
  /-- Every registered block of every module. -/
  registry : RegionMap Block := {}
  /-- The owners that are alive. -/
  owners : List Nat := []
  /-- The number of the next owner. -/
  nextOwner : Nat := 0
  /-- The serial number of the next block to be bound. -/
  nextSerial : Nat := 1

/-- An entry stub made on demand. -/
structure LazyExport where
  /-- The function that the stub enters. -/
  func : Nat
  /-- The index of the block of stubs among the blocks of the module. -/
  blockIndex : Nat
  /-- The index of the interpreter entry among the code ranges of that block. -/
  rangeIndex : Nat
  /-- What the block holds that the stub calls into. -/
  kind : BlockKind
  deriving DecidableEq, Repr

/-- The size of an entry stub in the list of those made, in bytes. -/
def LazyExport.size : Nat := 24

/-- How far the optimized tier is. -/
inductive OptimizedTier where
  /-- Nothing is installed, and an install may begin. -/
  | absent
  /-- An install is under way. -/
  | building
  /-- The tier is in use and never changes again. -/
  | published (block : Block)
  deriving DecidableEq, Repr

/-- The block of the optimized tier, once it is published. -/
def OptimizedTier.block? : OptimizedTier → Option Block
  | absent => none
  | building => none
  | published block => some block

/-- The code of one module. -/
structure ModuleCode where
  /-- The number of the module code as an owner of blocks. -/
  number : Nat
  /-- The settings it was created with. -/
  settings : Settings
  /-- The addresses of runtime symbols. -/
  symbols : SymbolTable
  /-- The signatures of the imports, which have the lowest function indices. -/
  imports : List Nat
  /-- The name of the module. -/
  moduleName : String
  /-- The names of functions, by index; missing ones are made up. -/
  funcNames : List String
  /-- The stubs that every tier shares. -/
  sharedStubs : Block
  /-- The first tier, which never changes. -/
  tier1 : Block
  /-- The optimized tier. -/
  tier2 : OptimizedTier := .absent
  /-- Every block, in the order in which they were added. -/
  blocks : List Block := []
  /-- The segments that entry stubs go to, the last one being filled. -/
  lazySegments : List Segment := []
  /-- The entry stubs made on demand, by function. -/
  lazyExports : List LazyExport := []
  /-- Which block contains an address. -/
  blockMap : RegionMap Block := {}
  /-- The dispatch tables. -/
  dispatch : DispatchTables
  /-- The labels for profilers, once they have been made. -/
  labels : List String := []
  /-- Every call to the stub compiler so far, oldest first. -/
  calls : List StubCall := []

namespace ModuleCode

/-- The code of a module with one more block. -/
def withBlock (code : ModuleCode) (block : Block) : ModuleCode :=
  { code with blocks := code.blocks ++ [block] }

/-- The code of a module without the last of its blocks. -/
def withoutLast (code : ModuleCode) : ModuleCode := { code with blocks := code.blocks.dropLast }

/-- The code of a module with one more segment for entry stubs. -/
def withSegment (code : ModuleCode) (segment : Segment) : ModuleCode :=
  { code with lazySegments := code.lazySegments ++ [segment] }

/-- The code of a module with one more call to the stub compiler noted. -/
def withCall (code : ModuleCode) (call : StubCall) : ModuleCode :=
  { code with calls := code.calls ++ [call] }

/-- The code of a module with other entry stubs made on demand. -/
def withExports (code : ModuleCode) (lazyExports : List LazyExport) : ModuleCode :=
  { code with lazyExports }

/-- The code of a module with other dispatch tables. -/
def withDispatch (code : ModuleCode) (dispatch : DispatchTables) : ModuleCode :=
  { code with dispatch }

/-- The code of a module with the optimized tier further on or back. -/
def withTier2 (code : ModuleCode) (tier2 : OptimizedTier) : ModuleCode := { code with tier2 }

end ModuleCode

/-- A module's code in its engine. -/
structure Running where
  /-- The engine. -/
  engine : Engine
  /-- The code of the module. -/
  code : ModuleCode

namespace Running

variable {α : Type}

/-- Runs an operation on code memory. -/
def onMemory (op : Op Memory α) : Op Running α :=
  Op.focus (·.engine.memory)
    (fun memory running => { running with engine := { running.engine with memory } }) op

/-- Runs an operation on the registry of the engine. -/
def onRegistry (op : Op (RegionMap Block) α) : Op Running α :=
  Op.focus (·.engine.registry)
    (fun registry running => { running with engine := { running.engine with registry } }) op

/-- Runs an operation on the block map of the module. -/
def onBlockMap (op : Op (RegionMap Block) α) : Op Running α :=
  Op.focus (·.code.blockMap)
    (fun blockMap running => { running with code := { running.code with blockMap } }) op

/-- Runs an operation on the dispatch tables. -/
def onDispatch (op : Op DispatchTables α) : Op Running α :=
  Op.focus (·.code.dispatch)
    (fun dispatch running => { running with code := running.code.withDispatch dispatch }) op

/-- Runs an operation on the engine. -/
def onEngine (op : Op Engine α) : Op Running α :=
  Op.focus (·.engine) (fun engine running => { running with engine }) op

/-- The code of the module as it is now. -/
def current : Op Running ModuleCode := do
  return (← get).code

/-- Changes the code of the module. -/
def change (f : ModuleCode → ModuleCode) : Op Running Unit :=
  modify fun running => { running with code := f running.code }

end Running

namespace Engine

variable {α : Type}

/-- Runs an operation on code memory. -/
def onMemory (op : Op Memory α) : Op Engine α :=
  Op.focus (·.memory) (fun memory engine => { engine with memory }) op

/-- Binds a block to an owner under the next serial number. -/
def bindBlock (owner : Nat) (block : Block) : Op Engine Block := do
  let engine ← get
  let bound ← Op.ofChecked (block.bind (.moduleCode owner) engine.nextSerial)
  set { engine with nextSerial := engine.nextSerial + 1 }
  return bound

/-- Whether the owner of a block is alive. -/
def ownerAlive (engine : Engine) (block : Block) : Bool :=
  match block.owner with
  | some (.moduleCode number) => engine.owners.contains number
  | _ => false

/-- Whether a program counter is in registered code. -/
def isCode (engine : Engine) (pc : Nat) : Bool :=
  (engine.registry.lookup pc).isSome

end Engine

end CompiledCode

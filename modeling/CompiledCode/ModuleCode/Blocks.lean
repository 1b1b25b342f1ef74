import CompiledCode.ModuleCode.State

/-!
# Adding blocks and taking them back

Every block of a module is in the list of its blocks. A block that holds code is
also in the block map of the module and in the registry of the engine; an
empty one is in neither. Lazily made exports refer to blocks by their index, so
that blocks are only ever added at the end, and only the last one is taken back.
-/

namespace CompiledCode.Running

/-- The size of a reference to a block or segment in bytes. -/
def referenceSize : Nat := 8

/-- Takes a block out of the block map of the module. -/
def unmapBlock (block : Block) : Op Running Unit := do
  let _ ← onBlockMap (RegionMap.remove block)

/-- Takes a block out of the registry of the engine. -/
def unregisterBlock (block : Block) : Op Running Unit := do
  let _ ← onRegistry (RegionMap.remove block)

/-- Enters a block into the block map of the module and the registry of the engine, or into
neither; an empty block goes into neither anyway. -/
def registerBlock (block : Block) : Op Running Unit := do
  if block.isEmpty then
    return ()
  else
    let room ← onMemory Memory.askRoom
    onBlockMap (RegionMap.insert block room)
    let room ← onMemory Memory.askRoom
    Op.onFailure (Op.during .registeringBlock (onRegistry (RegionMap.insert block room)))
      (unmapBlock block)

/-- Puts a block after those that the module has, and answers its index. -/
def appendBlock (block : Block) : Op Running Nat := do
  let index := (← current).blocks.length
  change (·.withBlock block)
  return index

/-- Adds a bound block to the module and answers its index. -/
def addBlock (block : Block) : Op Running Nat := do
  onMemory (Memory.grow referenceSize)
  registerBlock block
  appendBlock block

/-- Takes a block out of the block map and the registry, if it holds any code. -/
def withdrawBlock (block : Block) : Op Running Unit := do
  if block.isEmpty then
    return ()
  else
    unmapBlock block
    unregisterBlock block

/-- Takes back the block that was added last. -/
def popBlock (block : Block) : Op Running Unit := do
  let last := (← current).blocks.getLast?
  change (·.withoutLast)
  Op.require (last.any (·.serial = block.serial))
  withdrawBlock block

/-- Removes every block of the module from the registry, when the module code goes away. -/
def retire : Op Running Unit := do
  let code ← current
  onEngine (modify fun engine =>
    { engine with owners := engine.owners.filter (· ≠ code.number) })
  code.blocks.forM fun block =>
    if block.isEmpty then pure () else unregisterBlock block

end CompiledCode.Running

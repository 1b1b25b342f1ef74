import CompiledCode.ModuleCode.Blocks
import CompiledCode.ModuleCode.Query

/-!
# Making entry stubs

Entry stubs are compiled in one batch, go to the last segment for stubs if they
fit there and to a fresh one otherwise, and become a block of their own. Space
that has been claimed is not given back when a later step fails.

The stub compiler may itself ask for an install of an optimized tier, which is
refused as long as another install is under way or done.
-/

namespace CompiledCode.Running

/-- Begins an install, which only one caller at a time may do and none after a publication. -/
def beginInstall (kind : BlockKind) : Op Running Unit := do
  let code ← current
  Op.require (code.tier1.kind = .baselineTier)
  Op.require (kind = .optimizedTier)
  match code.tier2 with
  | .absent => change (·.withTier2 .building)
  | _ => Op.fail .optimizedAlreadyInstalled

/-- Remembers a call of the stub compiler and answers what it compiled. -/
def callCompiler (compiler : StubCompiler) (tier : Block) (requests : List StubRequest)
    (sawOptimized : Bool) (install : Option (Option Failure)) : Op Running CompiledStubs := do
  change (·.withCall { kind := tier.kind, sawOptimized, requests, install })
  match compiler.compile tier requests with
  | .ok stubs => return stubs
  | .error failure => throw (.failure failure)

/-- Calls the stub compiler, which may ask for an install first. -/
def compileStubs (compiler : StubCompiler) (tier : Block) (requests : List StubRequest) :
    Op Running CompiledStubs := do
  let sawOptimized := (← current).hasOptimized
  let install ←
    if compiler.asksForInstall tier then
      some <$> Op.failure? (beginInstall .optimizedTier)
    else pure none
  callCompiler compiler tier requests sawOptimized install

/-- The segment for entry stubs of `needed` bytes: the last one if they fit, or a fresh one. -/
def stubSegment (needed : Nat) : Op Running Segment := do
  let running ← get
  let reusable := running.code.lazySegments.getLast?.filter
    (·.fits running.engine.memory needed)
  match reusable with
  | some segment => return segment
  | none =>
    let least ← Op.ofAttempt (Page.roundUp running.code.settings.stubSegmentSize)
    onMemory (Memory.grow referenceSize)
    let segment ← Op.during .allocatingStubSegment
      (onMemory (Segment.reserve (max least needed)))
    change (·.withSegment segment)
    return segment

/-- How far tables are moved for code at an offset, which has to fit into 32 bits. -/
def tableDistance (offset : Nat) : Except Cause Nat :=
  if offset < UInt32.size then .ok offset else .error .offsetTooLarge

/-- Puts compiled stubs where room is claimed for them, into a block of their own, and answers its
index and the entries. -/
def putStubs (stubs : CompiledStubs) (entries : List StubEntries) (segment : Segment)
    (offset : Nat) : Op Running (Nat × List StubEntries) := do
  let code ← current
  onMemory (segment.install offset stubs.code stubs.plan code.symbols
    (code.trapCode.map UInt64.ofNat))
  let distance ← Op.ofAttempt (tableDistance offset)
  let tables ← Op.ofChecked ({ stubs.tables with funcs := {} }.checkedShift distance)
  let block ← onMemory
    (Block.make .lazyStubs segment offset (offset + stubs.code.length) tables)
  let bound ← onEngine (Engine.bindBlock code.number block)
  let index ← addBlock bound
  return (index, entries)

/-- Claims room for compiled stubs and puts them there, and answers the index of their block and
the entries. -/
def placeStubs (stubs : CompiledStubs) (requests : List StubRequest) :
    Op Running (Nat × List StubEntries) := do
  let entries ← Op.ofAttempt (stubs.entriesFor requests)
  let needed ← Op.ofAttempt (Page.roundUp stubs.code.length)
  let segment ← stubSegment needed
  let offset ← onMemory (segment.claim needed)
  putStubs stubs entries segment offset

/-- Makes entry stubs for all requests, and answers the index of their block and the entries. -/
def createStubs (compiler : StubCompiler) (requests : List StubRequest) (tier : Block) :
    Op Running (Nat × List StubEntries) := do
  let stubs ← Op.during .compilingStubs (compileStubs compiler tier requests)
  placeStubs stubs requests

/-- The address that stubs for a function call into a block. -/
def callee (tier : Block) (func : Nat) : Except Cause Nat :=
  match tier.funcEntry? func with
  | some address => .ok address
  | none => .error (.functionWithoutCode func tier.kind)

/-- Offers the jit entry that comes with a stub to its function. -/
def offerJitEntry (func : Nat) (stubs : Block) : (jit : Option Nat) → Op Running Unit
  | some jit => do
    let range ← Op.ofChecked (stubs.rangeAt jit)
    let _ ← onDispatch (DispatchTables.setJitEntryIfEmpty func (stubs.addressOf range.start))
  | none => pure ()

/-- Makes the first entry stub of an exported function and answers its interpreter entry. -/
def createStub (compiler : StubCompiler) (exportIndex : Nat) (entry : FuncExport) (tier : Block) :
    Op Running Nat := do
  let func := entry.func
  match searchKey (·.func) (← current).lazyExports func with
  | .found _ => Op.violate (.stubMadeTwice func)
  | .vacant position =>
    onMemory (Memory.grow LazyExport.size)
    let address ← Op.ofAttempt (callee tier func)
    let (index, entries) ← createStubs compiler [{ func, exportIndex, callee := address }] tier
    match entries, (← current).blocks[index]? with
    | [found], some stubs =>
      change fun code =>
        code.withExports (code.lazyExports.insertIdx position
          { func, blockIndex := index, rangeIndex := found.interp, kind := tier.kind })
      offerJitEntry func stubs found.jit
      let range ← Op.ofChecked (stubs.rangeAt found.interp)
      return stubs.addressOf range.start
    | _, _ => Op.violate .unstated

/-- The export of a function and the interpreter entry that was made for it, or is made now. -/
def findOrMakeEntry (compiler : StubCompiler) (func : Nat) (entry : FuncExport) :
    Op Running (FuncExport × Nat) := do
  match ← Op.ofChecked ((← current).lazyEntry func) with
  | some address => return (entry, address)
  | none =>
    -- The provider may have changed while waiting, so that the export is read again.
    let block := (← current).provider func
    let (exportIndex, entry) ← Op.ofChecked (block.exportOf func)
    let address ← Op.during (.creatingEntryStub func)
      (createStub compiler exportIndex entry block)
    return (entry, address)

/-- The export of a function and its interpreter entry, which is made if there is none yet. -/
def interpEntry (compiler : StubCompiler) (func : Nat) : Op Running (FuncExport × Nat) := do
  let code ← current
  let block := code.provider func
  let (_, entry) ← Op.ofChecked (block.exportOf func)
  match entry.eagerEntry with
  | some index =>
    let range ← Op.ofChecked (block.rangeAt index)
    return (entry, block.addressOf range.start)
  | none =>
    -- A jit entry comes along with an entry stub, so that it is worth a look without waiting.
    let jit ← Op.ofChecked (code.dispatch.jitEntry func)
    let early ← if jit.isSome then Op.ofChecked ((← current).lazyEntry func) else pure none
    match early with
    | some address => return (entry, address)
    | none => findOrMakeEntry compiler func entry

end CompiledCode.Running

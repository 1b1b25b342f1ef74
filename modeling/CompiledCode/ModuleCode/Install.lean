import CompiledCode.ModuleCode.Stubs

/-!
# Installing the optimized tier

An install links the new tier, registers it, makes new entry stubs for every
function that has one for the first tier, publishes the tier, and only then
points the dispatch tables at it. A failure before the publication takes
everything back, and another install may be tried. Stubs for imports call the
shared stubs and stay as they are.
-/

namespace CompiledCode.Running

/-- The requests for new entry stubs that call into the optimized tier. -/
def upgradeRequests (tier1Kind : BlockKind) (tier2 : Block) :
    List LazyExport → Except Cause (List StubRequest)
  | [] => .ok []
  | lazyExport :: rest =>
    if lazyExport.kind ≠ tier1Kind then upgradeRequests tier1Kind tier2 rest
    else
      match tier2.findExport? lazyExport.func with
      | none => .error (.notExportedFromOptimized lazyExport.func)
      | some (exportIndex, _) =>
        match callee tier2 lazyExport.func with
        | .error cause => .error cause
        | .ok address =>
          match upgradeRequests tier1Kind tier2 rest with
          | .error cause => .error cause
          | .ok requests =>
            .ok ({ func := lazyExport.func, exportIndex, callee := address } :: requests)

/-- Points the exports of first-tier functions at new stubs, given in the order of the exports. -/
def repoint (tier1Kind newKind : BlockKind) (blockIndex : Nat) :
    List LazyExport → List StubEntries → List LazyExport
  | [], _ => []
  | exports, [] => exports
  | lazyExport :: rest, entries :: more =>
    if lazyExport.kind ≠ tier1Kind then
      lazyExport :: repoint tier1Kind newKind blockIndex rest (entries :: more)
    else
      { lazyExport with blockIndex, rangeIndex := entries.interp, kind := newKind } ::
        repoint tier1Kind newKind blockIndex rest more

/-- Makes new entry stubs for the functions that have one for the first tier, if any has. -/
def upgradeStubs (compiler : StubCompiler) (tier2 : Block) : Op Running (Option Nat) := do
  let code ← current
  let tier1Kind := code.tier1.kind
  if !code.lazyExports.any (·.kind = tier1Kind) then
    return none
  else
    onMemory (Memory.grow
      (StubRequest.size * (code.lazyExports.filter (·.kind = tier1Kind)).length))
    let requests ← Op.ofAttempt (upgradeRequests tier1Kind tier2 code.lazyExports)
    let (index, entries) ← createStubs compiler requests tier2
    change fun code =>
      code.withExports (repoint tier1Kind tier2.kind index code.lazyExports entries)
    return some index

/-- Points the dispatch tables at the code ranges of a block of the optimized tier. -/
def redirectRange (block : Block) (range : CodeRange) : Op DispatchTables Unit :=
  match range.func, range.kind with
  | some func, .function => DispatchTables.setTiering func (block.addressOf range.tierEntry)
  | some func, .jitEntry => do
    let _ ← DispatchTables.setJitEntryIfEmpty func (block.addressOf range.start)
  | _, _ => pure ()

/-- Offers the jit entries of a block of stubs to the functions without one. -/
def offerRange (block : Block) (range : CodeRange) : Op DispatchTables Unit :=
  match range.func, range.kind with
  | some func, .jitEntry => do
    let _ ← DispatchTables.setJitEntryIfEmpty func (block.addressOf range.start)
  | _, _ => pure ()

/-- Places the new tier in memory and binds it to the module. -/
def buildOptimized (plan : PatchPlan) (compiled : CompiledBlock) : Op Running Block := do
  let code ← current
  let block ← onMemory (Block.place compiled plan code.symbols (some code.sharedStubs))
  onEngine (Engine.bindBlock code.number block)

/-- Points the dispatch tables at a published tier and at the stubs made for it. -/
def redirect (tier2 : Block) (stubIndex : Option Nat) : Op Running Unit := do
  tier2.tables.ranges.forM fun range => onDispatch (redirectRange tier2 range)
  match stubIndex with
  | none => return ()
  | some index =>
    match (← current).blocks[index]? with
    | none => Op.violate .unstated
    | some stubs => stubs.tables.ranges.forM fun range => onDispatch (offerRange stubs range)

/-- Installs a tier after the install has begun. -/
def installTier (compiler : StubCompiler) (plan : PatchPlan) (compiled : CompiledBlock) :
    Op Running Unit := do
  let tier2 ← buildOptimized plan compiled
  let _ ← addBlock tier2
  let stubIndex ← Op.onFailure (upgradeStubs compiler tier2) (popBlock tier2)
  change (·.withTier2 (.published tier2))
  redirect tier2 stubIndex

/-- Links an optimized tier and installs it; after a failure it may be tried again. -/
def installOptimized (compiler : StubCompiler) (plan : PatchPlan) (compiled : CompiledBlock) :
    Op Running Unit := do
  beginInstall compiled.kind
  Op.onFailure (installTier compiler plan compiled) (change (·.withTier2 .absent))

end CompiledCode.Running

import CompiledCode.ModuleCode.State

/-!
# Questions about the code of a module

Which tiers there are, which block provides a function, and what a program
counter stands for. Imports are provided by the shared stubs, every other
function by the best tier there is.
-/

namespace CompiledCode

/-- A code range, and the block that it was looked up in unless it is a mere copy. -/
structure LocatedRange where
  /-- The code range. -/
  range : CodeRange
  /-- The serial number of the block that the range belongs to. -/
  home : Option Nat := none
  deriving DecidableEq, Repr

namespace ModuleCode

/-- Whether the optimized tier has been published. -/
def hasOptimized (code : ModuleCode) : Bool := code.tier2.block?.isSome

/-- The tier of the first tier. -/
def stableTier (code : ModuleCode) : Except Violation Tier := code.tier1.tier

/-- The best tier that is available. -/
def bestTier (code : ModuleCode) : Except Violation Tier :=
  match code.tier2.block? with
  | some block => block.tier
  | none => code.tier1.tier

/-- Whether a complete tier is available. -/
def hasTier (code : ModuleCode) (tier : Tier) : Except Violation Bool := do
  if (← code.tier1.tier) = tier then
    return true
  else
    match code.tier2.block? with
    | some block => return (← block.tier) = tier
    | none => return false

/-- The block that holds a complete tier. -/
def tierBlock (code : ModuleCode) (tier : Tier) : Except Violation Block := do
  if (← code.tier1.tier) = tier then
    return code.tier1
  else
    match code.tier2.block? with
    | some block => if (← block.tier) = tier then return block else throw (.tierMissing tier)
    | none => throw (.tierMissing tier)

/-- The block that provides a function at present. -/
def provider (code : ModuleCode) (func : Nat) : Block :=
  if func < code.imports.length then code.sharedStubs
  else code.tier2.block?.getD code.tier1

/-- Whether a function runs in a tier at present. -/
def funcHasTier (code : ModuleCode) (func : Nat) (tier : Tier) : Except Violation Bool := do
  return (← (code.provider func).tier) = tier

/-- The export of a function in the block that provides it. -/
def exportOf (code : ModuleCode) (func : Nat) : Except Violation FuncExport :=
  ((code.provider func).exportOf func).map (·.2)

/-- The tier that a code range belongs to, if it was looked up in one of the tiers. -/
def tierOfRange (code : ModuleCode) (located : LocatedRange) : Except Violation (Option Tier) := do
  if located.home = some code.tier1.serial then
    return some (← code.tier1.tier)
  else
    match code.tier2.block? with
    | some block =>
      if located.home = some block.serial then return some (← block.tier) else return none
    | none => return none

/-- The code range at an index of a block, as a range of that block. -/
def rangeIn (block : Block) (index : Nat) : Except Violation LocatedRange := do
  return { range := ← block.rangeAt index, home := some block.serial }

/-- The block of the module that contains a program counter. -/
def blockAt? (code : ModuleCode) (pc : Nat) : Option Block := code.blockMap.lookup pc

/-- The range of a tier that contains a program counter, if that range is a function body. -/
def funcRangeAt? (code : ModuleCode) (pc : Nat) : Option LocatedRange :=
  let tiers := code.tier1 :: code.tier2.block?.toList
  let hit := tiers.findSome? fun block =>
    (block.range? pc).map fun range => ({ range, home := some block.serial } : LocatedRange)
  hit.filter (·.range.kind = .function)

/-- The call site whose return address is a program counter. -/
def callSiteAt? (code : ModuleCode) (pc : Nat) : Option CallSite :=
  (code.blockAt? pc).bind (·.callSite? pc)

/-- The stack map for the return address given by a program counter. -/
def stackMapAt? (code : ModuleCode) (pc : Nat) : Option StackMap :=
  (code.blockAt? pc).bind (·.stackMap? pc)

/-- The innermost try note for a return address, with the block that it belongs to. -/
def tryNoteAt? (code : ModuleCode) (pc : Nat) : Option (Block × TryNote) :=
  (code.blockAt? pc).bind fun block => (block.tryNote? pc).map (block, ·)

/-- The trap raised by the faulting instruction at a program counter. -/
def trapSiteAt? (code : ModuleCode) (pc : Nat) : Option TrapSite :=
  (code.blockAt? pc).bind (·.trapSite? pc)

/-- The unusual way to unwind at a program counter. -/
def unwindInfoAt? (code : ModuleCode) (pc : Nat) : Option UnwindInfo :=
  (code.blockAt? pc).bind (·.unwindInfo? pc)

/-- Where the program counter of a trapping instruction is redirected to. -/
def trapCode (code : ModuleCode) : Option Nat := code.sharedStubs.trapCode

/-- The tiering table, in tiering mode. -/
def tieringTable? (code : ModuleCode) : Option (List Nat) :=
  match code.settings.mode with
  | .tiering => some code.dispatch.tiering
  | .once => none

/-- The signature of an import. -/
def importAt (code : ModuleCode) (func : Nat) : Except Violation Nat :=
  match code.imports[func]? with
  | some type => .ok type
  | none => .error .unstated

/-- The address of the interpreter entry of a function that was made on demand, if there is one. -/
def lazyEntry (code : ModuleCode) (func : Nat) : Except Violation (Option Nat) :=
  match findKey? (·.func) code.lazyExports func with
  | none => .ok none
  | some (_, lazyExport) =>
    match code.blocks[lazyExport.blockIndex]? with
    | none => .error .unstated
    | some block => do
      let range ← block.rangeAt lazyExport.rangeIndex
      return some (block.addressOf range.start)

end ModuleCode

end CompiledCode

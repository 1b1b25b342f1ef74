import CompiledCode.Image.Check
import CompiledCode.ModuleCode.Create
import CompiledCode.ModuleCode.Query

/-!
# Saving and loading

Saving reads the shared stubs and one tier back from memory and erases their
patches, so that the image does not depend on where the code lived. Loading
checks an image, places its blocks at new addresses and creates the code of a
module from them. Entry stubs made on demand are not saved.
-/

namespace CompiledCode

/-- The unpatched code of a block that has a segment of its own, with its tables. -/
def Block.unpatched (block : Block) (memory : Memory) (plan : PatchPlan) :
    Except Fault CompiledBlock :=
  if block.start ≠ 0 then .error (.violation (.sharesSegment block.kind))
  else
    match block.segment.readUnpatched memory block.start block.stop plan with
    | .error fault => .error fault
    | .ok code => .ok { kind := block.kind, code, tables := block.tables }

namespace ModuleCode

/-- The image of the shared stubs and one tier, which the plans were used to patch. -/
def image (code : ModuleCode) (memory : Memory) (sharedPlan : PatchPlan) (tier : Tier)
    (tierPlan : PatchPlan) : Except Fault Image :=
  match code.sharedStubs.unpatched memory sharedPlan with
  | .error fault => .error fault
  | .ok sharedStubs =>
    match code.tierBlock tier with
    | .error violation => .error (.violation violation)
    | .ok block =>
      match block.unpatched memory tierPlan with
      | .error fault => .error fault
      | .ok saved =>
        .ok
          { settings := code.settings
            imports := code.imports
            moduleName := code.moduleName
            funcNames := code.funcNames
            sharedStubs, sharedPlan, tierPlan
            tier := saved }

/-- Creates the code of a module from an image. -/
def ofImage (settings : Settings) (symbols : SymbolTable) (image : Image) :
    Op Engine ModuleCode := do
  match image.fault? settings with
  | some fault => Op.fail (.malformedImage fault)
  | none =>
    let sharedStubs ← Engine.onMemory
      (Block.place image.sharedStubs image.sharedPlan symbols none)
    let tier1 ← Engine.onMemory
      (Block.place image.tier image.tierPlan symbols (some sharedStubs))
    create settings symbols
      { imports := image.imports
        sharedStubs, tier1
        moduleName := image.moduleName
        funcNames := image.funcNames }

/-- Creates the code of a module from the bytes of an image. -/
def load (settings : Settings) (symbols : SymbolTable) (bytes : Bytes) :
    Op Engine ModuleCode := do
  match Image.ofBytes bytes with
  | .error fault => Op.fail (.malformedImage fault)
  | .ok image => ofImage settings symbols image

end ModuleCode

end CompiledCode

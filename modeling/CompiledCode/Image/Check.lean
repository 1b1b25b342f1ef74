import CompiledCode.Image.Basic

/-!
# Checking images

The tables of an image were not necessarily written by this library, so that
everything that creating the code relies on is checked before anything is made
of them: the settings have to suit those of the host, each block has to be of the
right kind with tables in order and in bounds, every function covered has to
have a code range of its own, no function may have two jit entries, and the trap
exit has to lie in the shared stubs.
-/

namespace CompiledCode

namespace CodeTables

/-- Every function that the ranges and the exports name, in the order of checking. -/
def namedFuncs (tables : CodeTables) : List Nat :=
  tables.ranges.filterMap (·.func) ++ tables.exports.map (·.func)

/-- The functions covered are inverted or too many to have a code range each. -/
def hasBadSpan (tables : CodeTables) : Bool :=
  tables.funcs.stop < tables.funcs.first || tables.ranges.length < tables.funcs.size

/-- Marks the function of a code range in a bitmap over a span, if the function lies in the span. -/
def mark (funcs : FuncSpan) (marks : List Bool) (range : CodeRange) : List Bool :=
  match range.func.filter funcs.contains with
  | some func => marks.set (func - funcs.first) true
  | none => marks

/-- The functions covered that have a code range of a kind, as marks in a bitmap over them all. -/
def covered (tables : CodeTables) (kind : RangeKind) : List Bool :=
  (tables.ranges.filter (·.kind = kind)).foldl (mark tables.funcs)
    (List.replicate tables.funcs.size false)

/-- The first function covered that has no code range of a kind. -/
def uncovered? (tables : CodeTables) (kind : RangeKind) : Option Nat :=
  ((tables.covered kind).findIdx? (!·)).map (tables.funcs.first + ·)

/-- The functions of the jit entries. -/
def jitFuncs (tables : CodeTables) : List Nat :=
  (tables.ranges.filter (·.kind = .jitEntry)).filterMap (·.func)

end CodeTables

namespace CompiledBlock

/-- What is wrong with a block of a module with `funcCount` functions. -/
def fault? (block : CompiledBlock) (funcCount : Nat) : Option BlockFault :=
  let tables := block.tables
  if UInt32.size ≤ block.code.length then some .tooLarge
  else
    tables.disorder?.map .disorder
      <|> (tables.boundsFault? block.code.length).map .bounds
      <|> (tables.namedFuncs.find? (funcCount ≤ ·)).map .funcOutOfRange
      <|> (if tables.hasBadSpan then some (.funcSpan tables.funcs.first tables.funcs.stop)
        else none)
      <|> (tables.uncovered? block.kind.primaryRange).map .uncovered

/-- Why a block is not one of the expected kind in a module with `funcCount` functions. -/
def refusal? (block : CompiledBlock) (expected : BlockKind) (funcCount : Nat) :
    Option ImageFault :=
  if block.kind ≠ expected then some (.blockKind expected block.kind)
  else (block.fault? funcCount).map (.block expected)

end CompiledBlock

namespace Image

/-- The number of functions of the module. -/
def funcCount (image : Image) : Nat :=
  max image.sharedStubs.tables.funcs.stop image.tier.tables.funcs.stop

/-- The kind that the saved tier has to have: a tier of either kind, baseline in any other case. -/
def expectedTier (image : Image) : BlockKind :=
  match image.tier.kind with
  | .optimizedTier => .optimizedTier
  | _ => .baselineTier

/-- The least function with two jit entries in the image. -/
def doubleJitEntry? (image : Image) : Option Nat :=
  let funcs := image.sharedStubs.tables.jitFuncs ++ image.tier.tables.jitFuncs
  (funcs.filter fun func => 1 < funcs.count func).min?

/-- Whether the trap exit lies outside of the shared stubs, if these hold any code. -/
def trapExitOutside (image : Image) : Bool :=
  !image.sharedStubs.code.isEmpty && image.sharedStubs.code.length ≤ image.sharedPlan.trapOffset

/-- Why an image does not suit the settings of the host. -/
def unsuitable? (image : Image) (host : Settings) : Option ImageFault :=
  if image.settings.mode ≠ host.mode then some (.mode image.settings.mode host.mode)
  else if image.settings.branchProtection ≠ host.branchProtection then
    some (.branchProtection image.settings.branchProtection host.branchProtection)
  else none

/-- Why an image is refused by a host. -/
def fault? (image : Image) (host : Settings) : Option ImageFault :=
  image.unsuitable? host
    <|> image.sharedStubs.refusal? .sharedStubs image.funcCount
    <|> image.tier.refusal? image.expectedTier image.funcCount
    <|> image.doubleJitEntry?.map .twoJitEntries
    <|> (if image.trapExitOutside then some (.trapExit image.sharedPlan.trapOffset) else none)

end Image

end CompiledCode

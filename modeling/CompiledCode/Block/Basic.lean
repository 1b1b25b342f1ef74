import CompiledCode.Coverage
import CompiledCode.Memory.Segment
import CompiledCode.Tables.Check
import CompiledCode.Tables.Search

/-!
# Blocks of code

A block is one tier of a module, or a batch of stubs, in a segment, together
with the tables that describe it. It is checked once, when it is assembled, and
never changes afterwards, apart from being bound to its owner, which happens at
most once.
-/

namespace CompiledCode

/-- The output of compiling one block: unpatched code and tables relative to its start. -/
structure CompiledBlock where
  /-- What the block holds. -/
  kind : BlockKind
  /-- The unpatched code. -/
  code : Bytes
  /-- The tables that describe the code. -/
  tables : CodeTables
  deriving DecidableEq

/-- Who a block belongs to. -/
inductive Owner where
  /-- An owner that never came to life. -/
  | nobody
  /-- The module code with this number. -/
  | moduleCode (number : Nat)
  deriving DecidableEq, Repr

/-- A block of code in a segment. -/
structure Block where
  /-- What the block holds. -/
  kind : BlockKind
  /-- The segment that the code lives in. -/
  segment : Segment
  /-- The offset of the code in the segment. -/
  start : Nat
  /-- The offset after the code. -/
  stop : Nat
  /-- The code range of each function covered. -/
  coverage : Coverage
  /-- The tables, with offsets that count from the start of the segment. -/
  tables : CodeTables
  /-- Where trap handling is redirected to, for shared stubs. -/
  trapCode : Option Nat := none
  /-- Who the block belongs to, once it is bound. -/
  owner : Option Owner := none
  /-- What tells the block apart from every other bound block. -/
  serial : Nat := 0
  deriving DecidableEq, Repr

namespace Block

/-- Whether the first range starts and the last range ends inside of a stretch of code. -/
def rangesInside (start stop : Nat) (tables : CodeTables) : Bool :=
  match tables.ranges.head?, tables.ranges.getLast? with
  | some first, some last => start ≤ first.start && last.stop ≤ stop
  | _, _ => true

/-- Assembles a block from the code between two offsets of a segment with `inUse` bytes in use. -/
def assemble (kind : BlockKind) (segment : Segment) (inUse start stop : Nat)
    (tables : CodeTables) : Except Violation Block :=
  if ¬ (start ≤ stop ∧ stop ≤ inUse) then .error .unstated
  else
    match tables.disorder? with
    | some table => .error (.disorder table)
    | none =>
      if rangesInside start stop tables then
        .ok { kind, segment, start, stop, tables, coverage := Coverage.ofTables kind tables }
      else .error .rangesOutsideBlock

/-- Assembles a block, given room for its coverage. -/
def make (kind : BlockKind) (segment : Segment) (start stop : Nat) (tables : CodeTables) :
    Op Memory Block := do
  let block ← Op.ofChecked
    (assemble kind segment (segment.length (← get)) start stop tables)
  Memory.grow block.coverage.footprint
  return block

/-- Places compiled code into a segment of its own, patched for its address, as a block. -/
def place (compiled : CompiledBlock) (plan : PatchPlan) (symbols : SymbolTable)
    (shared : Option Block) : Op Memory Block := do
  let trapHandler := (shared.bind (·.trapCode)).map UInt64.ofNat
  let segment ← Op.during (.creatingSegment compiled.kind)
    (Segment.place compiled.code plan symbols trapHandler)
  let block ← make compiled.kind segment 0 compiled.code.length compiled.tables
  if compiled.kind = .sharedStubs then
    return { block with trapCode := some (segment.base + plan.trapOffset) }
  else
    return block

/-- Binds a block to its owner; every function covered has to have a code range. -/
def bind (block : Block) (owner : Owner) (serial : Nat) : Except Violation Block :=
  match block.coverage.requireFull with
  | .error violation => .error violation
  | .ok () =>
    match block.owner with
    | some _ => .error .boundTwice
    | none => .ok { block with owner := some owner, serial }

/-- The address of the first byte of the code. -/
def base (block : Block) : Nat := block.segment.base + block.start

/-- The number of bytes of code. -/
def length (block : Block) : Nat := block.stop - block.start

/-- Whether the block holds no code. -/
def isEmpty (block : Block) : Bool := block.length == 0

/-- The tier that a tier block holds. -/
def tier (block : Block) : Except Violation Tier :=
  match block.kind.tier? with
  | some tier => .ok tier
  | none => .error (.noTier block.kind)

/-- The address of an offset in the segment of the block. -/
def addressOf (block : Block) (offset : Nat) : Nat := block.segment.base + offset

/-- The code range at an index. -/
def rangeAt (block : Block) (index : Nat) : Except Violation CodeRange :=
  match block.tables.ranges[index]? with
  | some range => .ok range
  | none => .error .unstated

/-- The primary code range of a function, if the block has one. -/
def rangeOfFunc? (block : Block) (func : Nat) : Option CodeRange :=
  match block.coverage.lookup func with
  | some index => block.tables.ranges[index]?
  | none => none

/-- The primary code range of an exported function. -/
def rangeOfExport (block : Block) (entry : FuncExport) : Except Violation CodeRange :=
  match block.rangeOfFunc? entry.func with
  | some range => .ok range
  | none => .error (.noRangeForExport entry.func)

/-- The address where the primary code range of a function starts. -/
def funcEntry? (block : Block) (func : Nat) : Option Nat :=
  (block.rangeOfFunc? func).map fun range => block.addressOf range.start

/-- The export of a function and its index, if the block exports it. -/
def findExport? (block : Block) (func : Nat) : Option (Nat × FuncExport) :=
  block.tables.export? func

/-- The export of a function, which the block has to export, and its index. -/
def exportOf (block : Block) (func : Nat) : Except Violation (Nat × FuncExport) :=
  match block.findExport? func with
  | some found => .ok found
  | none => .error (.notExported func)

/-- One line that describes a block. -/
def describe (block : Block) : String :=
  "CodeBlock \x7b kind: " ++ block.kind.name ++ ", base: " ++ Text.hex block.base ++ ", len: " ++
    toString block.length ++ ", code_ranges: " ++ toString block.tables.ranges.length ++ " \x7d"

/-- The bytes that each kind of metadata of the block takes. -/
def footprint (block : Block) : List (String × Nat) :=
  ("func_to_code_range", block.coverage.footprint) :: block.tables.footprint

end Block

end CompiledCode

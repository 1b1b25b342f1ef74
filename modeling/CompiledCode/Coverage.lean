import CompiledCode.Fault
import CompiledCode.Tables.Basic

/-!
# Which code range a function has

A coverage map is a dense table over a span of functions. A slot holds the index
of the function's primary code range once it is known. The first range of a
function wins.
-/

namespace CompiledCode

/-- A dense map from functions to the indices of their code ranges. -/
structure Coverage where
  /-- The function of the first slot. -/
  first : Nat := 0
  /-- One slot for each function, empty until its code range is known. -/
  slots : List (Option Nat) := []
  deriving DecidableEq, Repr

namespace Coverage

/-- The index that stands for an empty slot and is never stored. -/
def reservedIndex : Nat := UInt32.size - 1

/-- A map over `count` functions with empty slots. -/
def vacant (first count : Nat) : Coverage where
  first := first
  slots := List.replicate count none

/-- The number of functions covered. -/
def size (coverage : Coverage) : Nat := coverage.slots.length

/-- The slot of a function, if it is covered. -/
def slot? (coverage : Coverage) (func : Nat) : Option Nat :=
  if coverage.first ≤ func ∧ func - coverage.first < coverage.size then
    some (func - coverage.first)
  else none

/-- The code range of a function, if it is covered and known. -/
def lookup (coverage : Coverage) (func : Nat) : Option Nat :=
  match coverage.slot? func with
  | some slot => coverage.slots[slot]?.join
  | none => none

/-- Sets the code range of a function, if it is covered. -/
def insert (coverage : Coverage) (func index : Nat) : Option Coverage :=
  match coverage.slot? func with
  | some slot =>
    let content := if index = reservedIndex then none else some index
    some { coverage with slots := coverage.slots.set slot content }
  | none => none

/-- Sets the code range of a function, which has to be covered. -/
def insertCovered (coverage : Coverage) (func index : Nat) : Except Violation Coverage :=
  match coverage.insert func index with
  | some next => .ok next
  | none => .error (.notCovered func)

/-- The first covered function without a code range. -/
def gap? (coverage : Coverage) : Option Nat :=
  (coverage.slots.findIdx? (·.isNone)).map (coverage.first + ·)

/-- Is violated if a covered function has no code range. -/
def requireFull (coverage : Coverage) : Except Violation Unit :=
  match coverage.gap? with
  | some func => .error (.uncoveredFunction func)
  | none => .ok ()

/-- The bytes that the map takes. -/
def footprint (coverage : Coverage) : Nat := 4 * coverage.size

/-- Notes a code range, unless it is of another kind or its function has one already. -/
def note (primary : RangeKind) (funcs : FuncSpan) (coverage : Coverage)
    (entry : CodeRange × Nat) : Coverage :=
  match entry.1.func with
  | none => coverage
  | some func =>
    if entry.1.kind = primary ∧ funcs.contains func ∧ (coverage.lookup func).isNone then
      (coverage.insert func entry.2).getD coverage
    else coverage

/-- The first range of the primary kind for each function of a block. -/
def ofTables (kind : BlockKind) (tables : CodeTables) : Coverage :=
  tables.ranges.zipIdx.foldl (note kind.primaryRange tables.funcs)
    (vacant tables.funcs.first tables.funcs.size)

end Coverage

end CompiledCode

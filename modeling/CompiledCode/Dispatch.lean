import CompiledCode.Block.Basic
import CompiledCode.Settings.Basic

/-!
# Dispatch tables

Compiled code calls functions through two tables with one slot per function,
imports included; a slot that holds zero is empty. The tiering table, which
exists in tiering mode alone, leads to the best code of a function and is
overwritten when a tier is installed. The jit-entry table leads to the entry
that compiled code uses; a slot keeps its first entry for ever.

Filling a table in which the slot of a function already holds another entry is a
violation, which is noticed only after the slot has been written.
-/

namespace CompiledCode

/-- The dispatch tables of one module. -/
structure DispatchTables where
  /-- Whether there is a tiering table. -/
  mode : CompileMode
  /-- The tiering table, without slots unless the mode is tiering. -/
  tiering : List Nat
  /-- The jit-entry table. -/
  jit : List Nat
  deriving DecidableEq, Repr

namespace DispatchTables

/-- Tables with empty slots for `count` functions. -/
def empty (mode : CompileMode) (count : Nat) : DispatchTables where
  mode := mode
  tiering :=
    match mode with
    | .tiering => List.replicate count 0
    | .once => []
  jit := List.replicate count 0

/-- The number of functions that the tables have slots for. -/
def size (tables : DispatchTables) : Nat := tables.jit.length

/-- Points the tiering slot of a function at `target`, if there is a tiering table. -/
def setTiering (index target : Nat) : Op DispatchTables Unit := do
  let tables ← get
  Op.require (index < tables.size)
  if tables.mode = .tiering then
    set { tables with tiering := tables.tiering.set index target }

/-- Installs the jit entry of a function; another entry there is noticed after it is gone. -/
def setJitEntry (index target : Nat) : Op DispatchTables Unit := do
  let tables ← get
  match tables.jit[index]? with
  | none => Op.violate .unstated
  | some previous =>
    set { tables with jit := tables.jit.set index target }
    Op.require (previous = 0 || previous = target) (.jitEntryOverwritten index)

/-- Installs the jit entry of a function unless it has one, and answers the one that it has then. -/
def setJitEntryIfEmpty (index target : Nat) : Op DispatchTables Nat := do
  Op.require (target != 0)
  let tables ← get
  match tables.jit[index]? with
  | none => Op.violate .unstated
  | some 0 =>
    set { tables with jit := tables.jit.set index target }
    return target
  | some existing => return existing

/-- The jit entry of a function, if it has one. -/
def jitEntry (tables : DispatchTables) (index : Nat) : Except Violation (Option Nat) :=
  match tables.jit[index]? with
  | none => .error .unstated
  | some 0 => .ok none
  | some entry => .ok (some entry)

/-- The address of the jit-entry slot of a function that has an entry, in a table at `base`. -/
def slotAddress (tables : DispatchTables) (base : UInt64) (index : Nat) :
    Except Violation UInt64 :=
  match tables.jit[index]? with
  | none => .error .unstated
  | some 0 => .error (.noJitEntry index)
  | some _ => .ok (base + 8 * UInt64.ofNat index)

/-- The function whose jit-entry slot has an address, in a table at `base`. -/
def indexOfSlot (tables : DispatchTables) (base address : UInt64) : Except Violation Nat :=
  let offset := address - base
  if base ≤ address ∧ offset % 8 = 0 then
    let index := (offset / 8).toNat
    if index < tables.size then .ok index else .error .notJitSlot
  else .error .notJitSlot

/-- Fills the slots that one code range of a block is for. -/
def fillRange (block : Block) (range : CodeRange) : Op DispatchTables Unit :=
  match range.func, range.kind with
  | some func, .function => setTiering func (block.addressOf range.tierEntry)
  | some func, .jitEntry => setJitEntry func (block.addressOf range.start)
  | _, _ => pure ()

/-- Tables for every function of two blocks, filled from their function bodies and jit entries. -/
def ofBlocks (mode : CompileMode) (shared tier1 : Block) : Except Fault DispatchTables :=
  let fill : Op DispatchTables Unit := do
    shared.tables.ranges.forM (fillRange shared)
    tier1.tables.ranges.forM (fillRange tier1)
  match fill (empty mode (max shared.tables.funcs.stop tier1.tables.funcs.stop)) with
  | .ok () tables => .ok tables
  | .error fault _ => .error fault

/-- The bytes that the tables take. -/
def footprint (tables : DispatchTables) : Nat :=
  8 * (tables.tiering.length + tables.jit.length)

/-- One line that describes the tables. -/
def describe (tables : DispatchTables) : String :=
  "JumpTables \x7b mode: " ++ tables.mode.name ++ ", num_funcs: " ++ toString tables.size ++
    " \x7d"

end DispatchTables

end CompiledCode

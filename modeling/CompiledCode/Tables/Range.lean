import CompiledCode.Block.Kind
import CompiledCode.Fault

/-!
# Code ranges

A code range is a contiguous piece of code with one purpose, given by the
offsets of its first byte and of the byte after its last. Selections of kinds
of ranges are sets of flags.
-/

namespace CompiledCode

/-- What a code range holds. -/
inductive RangeKind where
  /-- The body of a function. -/
  | function
  /-- A stub that the interpreter calls to enter a function. -/
  | interpEntry
  /-- A stub that compiled code calls to enter a function. -/
  | jitEntry
  /-- A stub that calls an import by the conventions of the interpreter. -/
  | importInterpExit
  /-- A stub that calls an import by the conventions of compiled code. -/
  | importJitExit
  /-- The stub that traps are redirected to. -/
  | trapExit
  /-- The stub that unwinds to an exception handler. -/
  | throw
  /-- A trampoline that extends the reach of near jumps. -/
  | farJumpIsland
  deriving DecidableEq, Repr

namespace RangeKind

/-- Every kind of range, in enumeration order. -/
def all : List RangeKind :=
  [function, interpEntry, jitEntry, importInterpExit, importJitExit, trapExit, throw,
    farJumpIsland]

/-- The name of a kind of range in listings. -/
def name : RangeKind → String
  | function => "Function"
  | interpEntry => "InterpEntry"
  | jitEntry => "JitEntry"
  | importInterpExit => "ImportInterpExit"
  | importJitExit => "ImportJitExit"
  | trapExit => "TrapExit"
  | throw => "Throw"
  | farJumpIsland => "FarJumpIsland"

/-- The flag of a kind in a selection. -/
def flag (kind : RangeKind) : Nat := 1 <<< kind.ctorIdx

end RangeKind

/-- A selection of kinds of ranges, as the sum of their flags. -/
structure RangeKinds where
  /-- The flags of the selected kinds. -/
  bits : Nat
  deriving DecidableEq, Repr

namespace RangeKinds

/-- The selection of every kind. -/
def all : RangeKinds := ⟨(RangeKind.all.map RangeKind.flag).foldl (· ||| ·) 0⟩

/-- The selection that given bits stand for; bits that are no flag are dropped. -/
def ofBits (bits : Nat) : RangeKinds := ⟨bits &&& all.bits⟩

/-- Whether a kind is selected. -/
def contains (kinds : RangeKinds) (kind : RangeKind) : Bool :=
  kinds.bits &&& kind.flag == kind.flag

end RangeKinds

/-- The kind of range that a function index maps to in a kind of block. -/
def BlockKind.primaryRange : BlockKind → RangeKind
  | .sharedStubs => .importInterpExit
  | .baselineTier => .function
  | .optimizedTier => .function
  | .lazyStubs => .interpEntry

/-- A contiguous piece of code with one purpose. -/
structure CodeRange where
  /-- What the range holds. -/
  kind : RangeKind
  /-- The function that the range belongs to, if it belongs to one. -/
  func : Option Nat
  /-- The offset of the first byte. -/
  start : Nat
  /-- The offset after the last byte. -/
  stop : Nat
  /-- The offset that the tiering table points at; only a function body may skip a prologue. -/
  tierEntry : Nat
  deriving DecidableEq, Repr

namespace CodeRange

/-- A range that is entered at its start; it must not end before it starts. -/
def make (kind : RangeKind) (func : Option Nat) (start stop : Nat) :
    Except Violation CodeRange :=
  if start ≤ stop then .ok { kind, func, start, stop, tierEntry := start } else .error .unstated

/-- The body of a function, which the tiering table enters inside of it. -/
def body (func start stop tierEntry : Nat) : Except Violation CodeRange :=
  if start ≤ tierEntry ∧ tierEntry < stop then
    .ok { kind := .function, func := some func, start, stop, tierEntry }
  else .error .unstated

/-- Whether an offset lies in the range. -/
def contains (range : CodeRange) (offset : Nat) : Bool :=
  range.start ≤ offset && offset < range.stop

/-- The number of bytes in the range. -/
def length (range : CodeRange) : Nat := range.stop - range.start

/-- The same range, `distance` further on. -/
def shift (range : CodeRange) (distance : Nat) : CodeRange :=
  { range with
    start := range.start + distance
    stop := range.stop + distance
    tierEntry := range.tierEntry + distance }

end CodeRange

end CompiledCode

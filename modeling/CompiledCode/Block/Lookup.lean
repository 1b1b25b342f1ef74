import CompiledCode.Block.Basic

/-!
# What a program counter stands for in a block

A program counter inside a block is turned into an offset of the segment, and
the offset is looked up in the tables. Elsewhere there is no answer.
-/

namespace CompiledCode.Block

/-- Whether a program counter points into the code of the block. -/
def contains (block : Block) (pc : Nat) : Bool :=
  block.base ≤ pc && pc < block.base + block.length

/-- The segment offset of a program counter inside of the block. -/
def offsetOf? (block : Block) (pc : Nat) : Option Nat :=
  if block.contains pc ∧ pc - block.segment.base < UInt32.size then some (pc - block.segment.base)
  else none

/-- The code range that contains a program counter, with its index. -/
def locateRange? (block : Block) (pc : Nat) : Option (Nat × CodeRange) :=
  (block.offsetOf? pc).bind block.tables.locateRange?

/-- The code range that contains a program counter. -/
def range? (block : Block) (pc : Nat) : Option CodeRange :=
  (block.offsetOf? pc).bind block.tables.range?

/-- The call site whose return address is a program counter. -/
def callSite? (block : Block) (pc : Nat) : Option CallSite :=
  (block.offsetOf? pc).bind block.tables.callSite?

/-- The stack map for the return address given by a program counter. -/
def stackMap? (block : Block) (pc : Nat) : Option StackMap :=
  (block.offsetOf? pc).bind block.tables.stackMap?

/-- The innermost try note that covers the return address given by a program counter. -/
def tryNote? (block : Block) (pc : Nat) : Option TryNote :=
  (block.offsetOf? pc).bind block.tables.tryNote?

/-- The trap raised by the faulting instruction at a program counter. -/
def trapSite? (block : Block) (pc : Nat) : Option TrapSite :=
  (block.offsetOf? pc).bind block.tables.trapSite?

/-- The unusual way to unwind at a program counter. -/
def unwindInfo? (block : Block) (pc : Nat) : Option UnwindInfo :=
  (block.offsetOf? pc).bind block.tables.unwindInfo?

end CompiledCode.Block

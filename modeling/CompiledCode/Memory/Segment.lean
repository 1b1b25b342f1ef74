import CompiledCode.Memory.Basic
import CompiledCode.Patch.Apply

/-!
# Segments of executable memory

A segment is a page-aligned stretch of code memory. It is either filled with
one piece of code when it is made, or reserved empty and then claimed piece by
piece, each piece starting on a page.

Code is installed by making its pages writable, copying and patching it there,
and making the same pages executable again. The last step is attempted even
when a patch is refused, so that no page stays writable, and if it fails too
then that is the failure reported.
-/

namespace CompiledCode

/-- A page-aligned stretch of code memory. -/
structure Segment where
  /-- The address of the first byte. -/
  base : Nat
  /-- The number of bytes. -/
  capacity : Nat
  deriving DecidableEq, Repr

namespace Segment

/-- Where a segment without any memory is said to start. -/
def emptyBase : Nat := 1

/-- Gets memory for at least `bytes` bytes; none at all is needed for none. -/
def obtain (bytes : Nat) : Op Memory Segment := do
  let capacity ← Op.ofAttempt (Page.roundUp bytes)
  if capacity = 0 then
    return { base := emptyBase, capacity := 0 }
  else
    let base ← Memory.map capacity
    return { base, capacity }

/-- Reserves a segment of at least `bytes` bytes to claim pieces of. -/
def reserve (bytes : Nat) : Op Memory Segment := do
  let segment ← obtain bytes
  modify (·.setInUse segment.base 0)
  return segment

/-- The number of bytes in use. -/
def length (segment : Segment) (memory : Memory) : Nat :=
  memory.inUse segment.base

/-- Whether a piece of `bytes` bytes can still be claimed. -/
def fits (segment : Segment) (memory : Memory) (bytes : Nat) : Bool :=
  bytes ≤ segment.capacity && segment.length memory ≤ segment.capacity - bytes

/-- Claims the next piece of `bytes` bytes and answers its offset. -/
def claim (segment : Segment) (bytes : Nat) : Op Memory Nat := do
  let memory ← get
  Op.require (segment.fits memory bytes) .overclaimed
  let offset := segment.length memory
  set (memory.setInUse segment.base (offset + bytes))
  return offset

/-- Changes what may be done with a stretch of the segment, which has to start on a page. -/
def protect (segment : Segment) (access : Access) (offset bytes : Nat) : Op Memory Unit := do
  Op.require (offset + bytes ≤ segment.capacity)
  Op.require (Page.aligned offset) .unalignedProtection
  if bytes = 0 then
    return ()
  else
    Memory.protect access (segment.base + offset) bytes

/-- Copies code to `offset`, patches it for its address and makes its pages executable. -/
def install (segment : Segment) (offset : Nat) (code : Bytes) (plan : PatchPlan)
    (symbols : SymbolTable) (trapHandler : Option UInt64) : Op Memory Unit := do
  let pages ← Op.ofAttempt (Page.roundUp code.length)
  Op.require (offset + pages ≤ segment.length (← get))
  segment.protect .writable offset pages
  let patched := plan.apply (segment.base + offset) symbols trapHandler code
  modify (·.write (segment.base + offset) patched.code)
  segment.protect .executable offset pages
  match patched.stopped with
  | none => return ()
  | some cause => Op.fail cause

/-- Makes a segment that holds one piece of code, patched for its address and executable. -/
def place (code : Bytes) (plan : PatchPlan) (symbols : SymbolTable)
    (trapHandler : Option UInt64) : Op Memory Segment := do
  let capacity ← Op.ofAttempt (Page.roundUp code.length)
  let segment ← obtain capacity
  modify (·.setInUse segment.base capacity)
  segment.install 0 code plan symbols trapHandler
  return segment

/-- The bytes from offset `start` up to offset `stop`. -/
def read (segment : Segment) (memory : Memory) (start stop : Nat) : Except Violation Bytes :=
  if start ≤ stop ∧ stop ≤ segment.capacity then
    .ok (memory.read (segment.base + start) (stop - start))
  else .error .unstated

/-- The bytes from offset `start` up to offset `stop`, with their patches erased. -/
def readUnpatched (segment : Segment) (memory : Memory) (start stop : Nat) (plan : PatchPlan) :
    Except Fault Bytes :=
  match segment.read memory start stop with
  | .error violation => .error (.violation violation)
  | .ok code =>
    match (plan.erase code).complete with
    | .error cause => .error (.failure { cause })
    | .ok unpatched => .ok unpatched

/-- One line that describes a segment. -/
def describe (segment : Segment) (memory : Memory) : String :=
  "CodeSegment \x7b base: " ++ Text.hex segment.base ++ ", length: " ++
    toString (segment.length memory) ++ ", capacity: " ++ toString segment.capacity ++ " \x7d"

end Segment

end CompiledCode

import CompiledCode.Bytes
import CompiledCode.Op

/-!
# Memory

Code memory is mapped and protected in whole pages. Rounding up to pages works
on 64-bit sizes, so a size too close to the largest one cannot be rounded.

The operating system hands out mappings of zeroed memory for code, each followed
by a guard page, and changes the protection of pages on request. It puts a mapping
where no other one is, on a page that it chooses or else after every one before,
but never at address zero, and may refuse either request. The heap grows tables on
request, and may refuse, too. What is refused, how large a mapping can be and where
mappings are put is part of the state, so that every system and every schedule can
be considered. Every call to the operating system is recorded, newest first.

The contents of memory are a function from addresses to bytes. How much of a
segment is in use is kept by the address where the segment starts, which tells
segments apart, as a segment without memory never has anything in use.
-/

namespace CompiledCode

namespace Page

/-- The size of a page in bytes. -/
def size : Nat := 4096

/-- The least multiple of the page size that is at least `bytes`, if it fits into 64 bits. -/
def roundUp (bytes : Nat) : Except Cause Nat :=
  if bytes + (size - 1) < UInt64.size then .ok ((bytes + (size - 1)) / size * size)
  else .error (.outOfMemory bytes)

/-- Whether a number is a multiple of the page size. -/
def aligned (n : Nat) : Bool := n % size == 0

/-- Rounding up yields a multiple of the page size, less than a page above the request. -/
theorem roundUp_eq_ok {bytes rounded : Nat} (h : roundUp bytes = .ok rounded) :
    rounded % size = 0 ∧ bytes ≤ rounded ∧ rounded < bytes + size := by
  rw [roundUp] at h
  split at h
  · cases h
    simp only [size]
    omega
  · cases h

end Page

/-- What was asked of the operating system. -/
inductive SystemRequest where
  /-- A fresh mapping. -/
  | map
  /-- Another protection for mapped pages. -/
  | protect (access : Access)
  deriving DecidableEq, Repr

/-- A call to the operating system and its outcome. -/
structure SystemCall where
  /-- What was asked. -/
  request : SystemRequest
  /-- Whether it was granted. -/
  granted : Bool
  /-- The address in question; zero for a refused mapping. -/
  address : Nat
  /-- The number of bytes in question. -/
  length : Nat
  deriving DecidableEq, Repr

/-- The name of a call in traces. -/
def SystemCall.name (call : SystemCall) : String :=
  let request :=
    match call.request with
    | .map => "map"
    | .protect .writable => "rw"
    | .protect .executable => "rx"
  if call.granted then request else request ++ "_failed"

/-- Where the addresses end that a process can have. -/
def Memory.endOfAddresses : Nat := 0x800000000000

/-- Code memory and the operating system behind it. -/
structure Memory where
  /-- The largest mapping there can be. -/
  largestMapping : Nat := 0x10000000
  /-- Mapped addresses lie below this one. -/
  limit : Nat := Memory.endOfAddresses
  /-- Where the next mapping starts unless another place is chosen for it. -/
  next : Nat := 0x200000000000
  /-- The places chosen for the mappings to come, as far as any are. -/
  sites : List Nat := []
  /-- The mappings in use, as their addresses and lengths. -/
  mapped : List (Nat × Nat) := []
  /-- The mappings that are refused, counted from one. -/
  refusedMaps : List Nat := []
  /-- The protection changes that are refused, counted from one. -/
  refusedProtects : List Nat := []
  /-- The growths of tables that are refused, counted from one. -/
  refusedGrowths : List Nat := []
  /-- How many mappings have been asked for. -/
  mapCalls : Nat := 0
  /-- How many protection changes have been asked for. -/
  protectCalls : Nat := 0
  /-- How many growths of tables have been asked for. -/
  growths : Nat := 0
  /-- Every call so far, newest first. -/
  log : List SystemCall := []
  /-- How many calls have been reported in a trace. -/
  reported : Nat := 0
  /-- What each address holds. -/
  byteAt : Nat → UInt8 := fun _ => 0
  /-- How many bytes are in use in the segment that starts at each address. -/
  inUse : Nat → Nat := fun _ => 0

namespace Memory

/-- Where the next mapping would start. -/
def site (memory : Memory) : Nat := memory.sites.head?.getD memory.next

/-- Whether a stretch of addresses has nothing in common with any mapping in use. -/
def vacant (memory : Memory) (address length : Nat) : Bool :=
  memory.mapped.all fun mapping =>
    address + length ≤ mapping.1 || mapping.1 + mapping.2 ≤ address

/-- Whether the next mapping, of `length` bytes, is granted. -/
def grantsMap (memory : Memory) (length : Nat) : Bool :=
  !memory.refusedMaps.contains (memory.mapCalls + 1) && length ≤ memory.largestMapping &&
    0 < memory.site && Page.aligned memory.site &&
    memory.site + length + Page.size ≤ memory.limit && memory.vacant memory.site length

/-- Maps `length` bytes of zeroed, writable memory and answers where they start. -/
def map (length : Nat) : Op Memory Nat := do
  let memory ← get
  if memory.grantsMap length then
    set { memory with
      next := max memory.next (memory.site + length + Page.size)
      sites := memory.sites.tail
      mapped := (memory.site, length) :: memory.mapped
      mapCalls := memory.mapCalls + 1
      log := ⟨.map, true, memory.site, length⟩ :: memory.log }
    return memory.site
  else
    set { memory with
      sites := memory.sites.tail
      mapCalls := memory.mapCalls + 1
      log := ⟨.map, false, 0, length⟩ :: memory.log }
    Op.fail (.mappingRefused length)

/-- Changes what may be done with the pages from `address` on. -/
def protect (access : Access) (address length : Nat) : Op Memory Unit := do
  let memory ← get
  let granted := !memory.refusedProtects.contains (memory.protectCalls + 1)
  set { memory with
    protectCalls := memory.protectCalls + 1
    log := ⟨.protect access, granted, address, length⟩ :: memory.log }
  if granted then return () else Op.fail (.protectionRefused access)

/-- Asks for room to grow a table, and answers whether there is any. -/
def askRoom : Op Memory Bool := do
  let memory ← get
  set { memory with growths := memory.growths + 1 }
  return !memory.refusedGrowths.contains (memory.growths + 1)

/-- Grows a table by `bytes` bytes; a table that needs none does not grow. -/
def grow (bytes : Nat) : Op Memory Unit := do
  if bytes = 0 then
    return ()
  else if ← askRoom then
    return ()
  else
    Op.fail (.outOfMemory bytes)

/-- Writes bytes from `address` on. -/
def write (memory : Memory) (address : Nat) (content : Bytes) : Memory :=
  let stored := content.toArray
  { memory with
    byteAt := fun place =>
      if address ≤ place then stored[place - address]?.getD (memory.byteAt place)
      else memory.byteAt place }

/-- The `length` bytes from `address` on. -/
def read (memory : Memory) (address length : Nat) : Bytes :=
  (List.range length).map fun i => memory.byteAt (address + i)

/-- Sets how many bytes are in use in the segment that starts at `base`. -/
def setInUse (memory : Memory) (base bytes : Nat) : Memory :=
  { memory with inUse := fun other => if other = base then bytes else memory.inUse other }

/-- The calls since the last trace, oldest first, which count as reported from now on. -/
def takeTrace : Op Memory (List SystemCall) := do
  let memory ← get
  set { memory with reported := memory.log.length }
  return (memory.log.take (memory.log.length - memory.reported)).reverse

/-- A written stretch holds what was written, and other addresses what they held. -/
theorem byteAt_write (memory : Memory) (address place : Nat) (content : Bytes) :
    (memory.write address content).byteAt place =
      if address ≤ place then content[place - address]?.getD (memory.byteAt place)
      else memory.byteAt place := by
  simp [write]

end Memory

end CompiledCode

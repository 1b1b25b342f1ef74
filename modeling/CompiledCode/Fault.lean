import CompiledCode.Image.Fault

/-!
# Failures and violations

An operation can end badly in two ways. It *fails* when the surroundings refuse
something, a relocation does not fit or an input is malformed: its caller gets
a failure and carries on. It is *violated* when a caller breaks an invariant
that the operation relies on, which stops the caller as well.

Both are recorded as causes. A failure also records what was being done, from
the outermost activity inwards, and one rendering function gives its wording.
-/

namespace CompiledCode

open Text

/-- What may be done with a page of code memory. -/
inductive Access where
  /-- Read and write. -/
  | writable
  /-- Read and execute. -/
  | executable
  deriving DecidableEq, Repr

/-- Why an operation failed. -/
inductive Cause where
  /-- Code memory of this size could not be had. -/
  | outOfMemory (bytes : Nat)
  /-- The operating system refused to map this many bytes. -/
  | mappingRefused (bytes : Nat)
  /-- The operating system refused to change the protection of code memory. -/
  | protectionRefused (access : Access)
  /-- A patch refers to a runtime symbol that has no address. -/
  | unresolvedSymbol (symbol : RuntimeSymbol)
  /-- A patch site or target does not fit into the code. -/
  | patchOutOfBounds (offset length : Nat)
  /-- A displacement does not fit into 32 bits. -/
  | displacementOverflow (offset : Nat)
  /-- The offset of code in its segment does not fit into 32 bits. -/
  | offsetTooLarge
  /-- The optimized tier has been installed, or is being installed, already. -/
  | optimizedAlreadyInstalled
  /-- An image cannot be loaded. -/
  | malformedImage (fault : ImageFault)
  /-- Compiled stubs lack an interpreter entry for a function. -/
  | missingInterpEntry (func : Nat)
  /-- A function with an entry stub is not exported from the optimized tier. -/
  | notExportedFromOptimized (func : Nat)
  /-- A function has no code in a block of the given kind. -/
  | functionWithoutCode (func : Nat) (kind : BlockKind)
  /-- A collaborator failed and gave its reason in words. -/
  | reported (text : String)
  deriving DecidableEq, Repr

namespace Cause

/-- The wording of a cause. -/
def message : Cause → String
  | outOfMemory bytes => "failed to allocate " ++ hex bytes ++ " bytes of code memory"
  | mappingRefused bytes =>
    "mmap failed to allocate " ++ hex bytes ++ " bytes: failed to allocate " ++ hex bytes ++
      " bytes of code memory: Cannot allocate memory (os error 12)"
  | protectionRefused .writable =>
    "failed to make code memory writable: Permission denied (os error 13)"
  | protectionRefused .executable =>
    "failed to make memory executable: Permission denied (os error 13)"
  | unresolvedSymbol symbol =>
    "unresolved symbolic address \x60" ++ symbol.name ++ "\x60 while linking"
  | patchOutOfBounds offset length =>
    "relocation at offset " ++ hex offset ++ " is out of bounds of " ++ hex length ++ "-byte code"
  | displacementOverflow offset =>
    "relocation at offset " ++ hex offset ++ " is out of range of a 32-bit displacement"
  | offsetTooLarge => "out of range integral type conversion attempted"
  | optimizedAlreadyInstalled => "an optimized tier has already been installed for this code"
  | malformedImage fault => "invalid serialized code: " ++ fault.message
  | missingInterpEntry func =>
    "entry stubs lack an interpreter entry for function " ++ toString func
  | notExportedFromOptimized func =>
    "function " ++ toString func ++ " is not exported from tier 2"
  | functionWithoutCode func kind => "function " ++ toString func ++ " has no code in " ++ kind.name
  | reported text => text

end Cause

/-- What was being done when a failure came up. -/
inductive Activity where
  /-- Placing the code of a block into a segment of its own. -/
  | creatingSegment (kind : BlockKind)
  /-- Asking the stub compiler for entry stubs. -/
  | compilingStubs
  /-- Getting a fresh segment for entry stubs. -/
  | allocatingStubSegment
  /-- Making the entry stub of a function. -/
  | creatingEntryStub (func : Nat)
  /-- Entering a block into the registry. -/
  | registeringBlock
  /-- Getting room for the dispatch tables. -/
  | allocatingDispatchTables
  deriving DecidableEq, Repr

/-- The wording of an activity. -/
def Activity.message : Activity → String
  | creatingSegment kind => "failed to create code segment for " ++ kind.name
  | compilingStubs => "failed to compile entry stubs"
  | allocatingStubSegment => "failed to allocate lazy stub segment"
  | creatingEntryStub func => "failed to create entry stub for function " ++ toString func
  | registeringBlock => "failed to register code block"
  | allocatingDispatchTables => "failed to allocate jump tables"

/-- A failure: its cause, and the activities it interrupted, outermost first. -/
structure Failure where
  /-- The activities that the failure interrupted, outermost first. -/
  activities : List Activity := []
  /-- Why it failed. -/
  cause : Cause
  deriving DecidableEq, Repr

namespace Failure

/-- The whole chain of a failure, outermost activity first. -/
def message (failure : Failure) : String :=
  ": ".intercalate (failure.activities.map Activity.message ++ [failure.cause.message])

/-- The same failure, seen from an activity around it. -/
def during (activity : Activity) (failure : Failure) : Failure :=
  { failure with activities := activity :: failure.activities }

end Failure

/-- A broken invariant. -/
inductive Violation where
  /-- A condition without a wording of its own, such as an index outside of a table. -/
  | unstated
  /-- More was claimed than the segment holds. -/
  | overclaimed
  /-- The protection of memory that does not start on a page was to change. -/
  | unalignedProtection
  /-- A table is out of order. -/
  | disorder (table : SortedTable)
  /-- The code ranges leave the block. -/
  | rangesOutsideBlock
  /-- An offset in a table no longer fits into 32 bits. -/
  | offsetOverflow
  /-- A function lies outside of a coverage map. -/
  | notCovered (func : Nat)
  /-- A covered function has no code range. -/
  | uncoveredFunction (func : Nat)
  /-- A block was given to an owner twice. -/
  | boundTwice
  /-- A block of stubs was asked for its tier. -/
  | noTier (kind : BlockKind)
  /-- An exported function has no code range. -/
  | noRangeForExport (func : Nat)
  /-- A function is not exported. -/
  | notExported (func : Nat)
  /-- A tier is not available. -/
  | tierMissing (tier : Tier)
  /-- The jit entry of a function was replaced by another one. -/
  | jitEntryOverwritten (index : Nat)
  /-- A function has no jit entry. -/
  | noJitEntry (index : Nat)
  /-- An address is not that of a jit-entry slot. -/
  | notJitSlot
  /-- A region without any address was registered. -/
  | emptyRegion
  /-- A region overlaps one that is registered. -/
  | overlap (start stop otherStart otherStop : Nat)
  /-- A region that is not registered was removed. -/
  | notRegistered
  /-- A block that shares its segment was to be saved. -/
  | sharesSegment (kind : BlockKind)
  /-- A function got a second entry stub. -/
  | stubMadeTwice (func : Nat)
  deriving DecidableEq, Repr

namespace Violation

/-- The wording of a violation, for those that have one. -/
def message? : Violation → Option String
  | unstated => none
  | overclaimed => some "claimed more than the segment holds"
  | unalignedProtection => some "changing of protections isn't page-aligned"
  | disorder table => some table.complaint
  | rangesOutsideBlock => some "code ranges fall outside of the block"
  | offsetOverflow => some "attempt to add with overflow"
  | notCovered func => some ("function " ++ toString func ++ " is not covered by this map")
  | uncoveredFunction func => some ("function " ++ toString func ++ " has no code range")
  | boundTwice => some "code block initialized twice"
  | noTier kind => some (kind.name ++ " blocks have no tier")
  | noRangeForExport func => some ("no code range for function " ++ toString func)
  | notExported func => some ("function " ++ toString func ++ " is not exported")
  | tierMissing tier => some ("no " ++ tier.name ++ " code")
  | jitEntryOverwritten index => some ("jit entry " ++ toString index ++ " overwritten")
  | noJitEntry index => some ("no jit entry for " ++ toString index)
  | notJitSlot => some "not a jit entry slot"
  | emptyRegion => some "registering an empty code region"
  | overlap start stop otherStart otherStop =>
    some ("code region " ++ hex start ++ ".." ++ hex stop ++ " overlaps " ++ hex otherStart ++
      ".." ++ hex otherStop)
  | notRegistered => some "removing a code region that isn't registered"
  | sharesSegment kind => some (kind.name ++ " block shares a segment")
  | stubMadeTwice func =>
    some ("internal error: entered unreachable code: lazy export for " ++ toString func ++
      " created twice")

end Violation

/-- How an operation that does not succeed ends. -/
inductive Fault where
  /-- It fails, and its caller carries on. -/
  | failure (failure : Failure)
  /-- It was called against an invariant. -/
  | violation (violation : Violation)
  deriving DecidableEq, Repr

/-- Whether an operation was called against an invariant. -/
def Fault.isViolation : Fault → Bool
  | failure _ => false
  | violation _ => true

/-- The kinds of failure that callers tell apart. -/
inductive FailureKind where
  | outOfMemory
  | unresolvedSymbol
  | patchOutOfBounds
  | displacementOverflow
  | optimizedAlreadyInstalled
  | malformedImage
  | other
  deriving DecidableEq, Repr

/-- The kind of a cause; callers treat a refused mapping as running out of memory. -/
def Cause.kind : Cause → FailureKind
  | outOfMemory _ => .outOfMemory
  | mappingRefused _ => .outOfMemory
  | unresolvedSymbol _ => .unresolvedSymbol
  | patchOutOfBounds _ _ => .patchOutOfBounds
  | displacementOverflow _ => .displacementOverflow
  | optimizedAlreadyInstalled => .optimizedAlreadyInstalled
  | malformedImage _ => .malformedImage
  | protectionRefused _ => .other
  | offsetTooLarge => .other
  | missingInterpEntry _ => .other
  | notExportedFromOptimized _ => .other
  | functionWithoutCode _ _ => .other
  | reported _ => .other

end CompiledCode

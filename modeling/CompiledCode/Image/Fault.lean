import CompiledCode.Block.Kind
import CompiledCode.Patch.Symbol
import CompiledCode.Settings.Basic
import CompiledCode.Tables.Fault

/-!
# Why an image is refused

An image can be cut short or garbled, can come from another version or other
settings, or can hold tables that contradict each other.
-/

namespace CompiledCode

open Text

/-- A problem met while reading the bytes of an image from left to right. -/
inductive WireFault where
  /-- The input ends in the middle of a value. -/
  | endOfInput
  /-- A variable-length number is too long or too large for its type. -/
  | endlessNumber
  /-- A truth value is neither zero nor one. -/
  | truthValue
  /-- The mark of an optional value is neither zero nor one. -/
  | optionMark
  /-- A text is not well-formed UTF-8. -/
  | text
  /-- A number names no alternative, or a fixed-size list has the wrong size. -/
  | value
  deriving DecidableEq, Repr

/-- The wording of a problem in the bytes of an image. -/
def WireFault.message : WireFault → String
  | endOfInput => "Hit the end of buffer, expected more data"
  | endlessNumber =>
    "Found a varint that didn't terminate. Is the usize too big for this platform?"
  | truthValue => "Found a bool that wasn't 0 or 1"
  | optionMark => "Found an Option discriminant that wasn't 0 or 1"
  | text => "Tried to parse invalid utf-8"
  | value => "Serde Deserialization Error"

/-- What is wrong with one block of an image. -/
inductive BlockFault where
  /-- The code is longer than 32-bit offsets can reach. -/
  | tooLarge
  /-- A table is out of order. -/
  | disorder (table : SortedTable)
  /-- An entry does not fit the code. -/
  | bounds (fault : BoundsFault)
  /-- A function index lies past every function of the module. -/
  | funcOutOfRange (func : Nat)
  /-- The functions covered are inverted or more than there are code ranges. -/
  | funcSpan (first stop : Nat)
  /-- A covered function has no code range of its own. -/
  | uncovered (func : Nat)
  deriving DecidableEq, Repr

/-- The wording of a fault in a block of the given kind. -/
def BlockFault.message (kind : BlockKind) : BlockFault → String
  | tooLarge => kind.name ++ " block too large"
  | disorder table => kind.name ++ ": " ++ table.complaint
  | bounds fault => kind.name ++ ": " ++ fault.message
  | funcOutOfRange func => kind.name ++ ": function " ++ toString func ++ " out of range"
  | funcSpan first stop =>
    kind.name ++ ": bad function range " ++ toString first ++ ".." ++ toString stop
  | uncovered func => kind.name ++ ": function " ++ toString func ++ " has no code range"

/-- Why an image is refused. -/
inductive ImageFault where
  /-- There are no bytes at all. -/
  | empty
  /-- The image has another version. -/
  | version (found : Nat)
  /-- The bytes cannot be read. -/
  | wire (fault : WireFault)
  /-- A list of symbol sites does not have one entry for each runtime symbol. -/
  | symbolLists (found : Nat)
  /-- The code was compiled for another mode. -/
  | mode (found expected : CompileMode)
  /-- The code was compiled with another choice of branch protection. -/
  | branchProtection (found expected : Bool)
  /-- A block holds something else than it should. -/
  | blockKind (expected found : BlockKind)
  /-- A block of the given kind is at fault. -/
  | block (kind : BlockKind) (fault : BlockFault)
  /-- Two jit entries compete for one function. -/
  | twoJitEntries (func : Nat)
  /-- The trap exit lies outside of the shared stubs. -/
  | trapExit (offset : Nat)
  deriving DecidableEq, Repr

/-- The version of images that this library writes and reads. -/
def imageVersion : UInt8 := 1

/-- The wording of a refusal. -/
def ImageFault.message : ImageFault → String
  | empty => "empty image"
  | version found =>
    "unsupported version " ++ toString found ++ ", expected " ++ toString imageVersion.toNat
  | wire fault => fault.message
  | symbolLists found =>
    "expected " ++ toString RuntimeSymbol.count ++ " symbolic link lists, found " ++ toString found
  | mode found expected =>
    "code was compiled with compile mode " ++ found.name ++ " but " ++ expected.name ++
      " is expected for the host"
  | branchProtection found expected =>
    "code was compiled " ++ (if found then "with" else "without") ++
      " branch protection but it is " ++ (if expected then "enabled" else "not enabled") ++
      " for the host"
  | blockKind expected found =>
    "expected a " ++ expected.name ++ " block, found " ++ found.name
  | block kind fault => fault.message kind
  | twoJitEntries func => "function " ++ toString func ++ " has two jit entries"
  | trapExit offset => "trap exit " ++ hex offset ++ " out of bounds"

end CompiledCode

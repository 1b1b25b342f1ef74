import CompiledCode.Block.Basic

/-!
# Entry stubs

A function is entered from outside of the module through stubs that a stub
compiler makes on demand: one for the interpreter, and possibly one for compiled
code. The compiler is a collaborator that may fail or leave entries out.
-/

namespace CompiledCode

/-- A function that needs entry stubs. -/
structure StubRequest where
  /-- The function to enter. -/
  func : Nat
  /-- The index of its export in the block that provides it. -/
  exportIndex : Nat
  /-- The address that the stubs call. -/
  callee : Nat
  deriving DecidableEq, Repr

/-- The size of a request in bytes. -/
def StubRequest.size : Nat := 24

/-- Unpatched entry stubs with the tables that describe them. -/
structure CompiledStubs where
  /-- The unpatched code. -/
  code : Bytes := []
  /-- What to patch in the code. -/
  plan : PatchPlan := {}
  /-- The tables that describe the code. -/
  tables : CodeTables := {}

/-- The indices of the entries of one function. -/
structure StubEntries where
  /-- The index of the code range with the interpreter entry. -/
  interp : Nat
  /-- The index of the code range with the jit entry, if there is one. -/
  jit : Option Nat := none
  deriving DecidableEq, Repr

/-- The index of the first range of a kind for a function. -/
def entryIndex? (kind : RangeKind) (func : Nat) (ranges : List CodeRange) : Option Nat :=
  ranges.findIdx? fun range => range.func = some func && range.kind = kind

/-- The entries of a function, if it has an interpreter entry. -/
def CompiledStubs.entries? (stubs : CompiledStubs) (func : Nat) : Option StubEntries :=
  (entryIndex? .interpEntry func stubs.tables.ranges).map fun interp =>
    { interp, jit := entryIndex? .jitEntry func stubs.tables.ranges }

/-- The entries of every requested function, in the order of the requests. -/
def CompiledStubs.entriesFor (stubs : CompiledStubs) :
    List StubRequest → Except Cause (List StubEntries)
  | [] => .ok []
  | request :: rest =>
    match stubs.entries? request.func with
    | none => .error (.missingInterpEntry request.func)
    | some entries =>
      match stubs.entriesFor rest with
      | .ok more => .ok (entries :: more)
      | .error cause => .error cause

/-- The collaborator that makes entry stubs. -/
structure StubCompiler where
  /-- Makes entry stubs that call into a block for all requests at once. -/
  compile : Block → List StubRequest → Except Failure CompiledStubs
  /-- Whether the compiler itself asks for an install when it is called for a block. -/
  asksForInstall : Block → Bool := fun _ => false

/-- A call to the stub compiler, as it is remembered. -/
structure StubCall where
  /-- What the block holds that the stubs call into. -/
  kind : BlockKind
  /-- Whether the optimized tier was published at the time. -/
  sawOptimized : Bool
  /-- The functions that stubs were asked for. -/
  requests : List StubRequest
  /-- How an install that the compiler itself asked for was refused, if it asked. -/
  install : Option (Option Failure) := none
  deriving DecidableEq, Repr

end CompiledCode

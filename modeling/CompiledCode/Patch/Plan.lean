import CompiledCode.Bytes
import CompiledCode.Fault

/-!
# Patch plans

A code generator does not know where its code will live. It leaves placeholders
and hands over a plan that lists every place to patch once the address is
known: places that refer to the code itself, and places that refer to runtime
symbols. Sites and targets are offsets from the start of the code.
-/

namespace CompiledCode

/-- How a patch site holds the address of its target. -/
inductive Encoding where
  /-- The address itself, in eight bytes. -/
  | absolute
  /-- The signed distance from the end of the site, in four bytes. -/
  | relative32
  deriving DecidableEq, Repr

namespace Encoding

/-- Both encodings, in enumeration order. -/
def all : List Encoding := [absolute, relative32]

/-- The name of an encoding. -/
def name : Encoding → String
  | absolute => "Absolute"
  | relative32 => "Relative32"

/-- The number of bytes that a patch site takes. -/
def width : Encoding → Nat
  | absolute => 8
  | relative32 => 4

end Encoding

/-- A reference from one place in the code to another. -/
structure InternalPatch where
  /-- Where the bytes to patch start. -/
  site : Nat
  /-- Where the reference points. -/
  target : Nat
  /-- How the site holds the reference. -/
  encoding : Encoding := .absolute
  deriving DecidableEq, Repr

/-- Everything that has to be patched in one piece of code. -/
structure PatchPlan where
  /-- Where the trap exit starts, which matters for shared stubs alone. -/
  trapOffset : Nat := 0
  /-- References within the code, in the order in which they are patched. -/
  internal : List InternalPatch := []
  /-- The sites that refer to each runtime symbol. -/
  symbolic : RuntimeSymbol → List Nat := fun _ => []

namespace PatchPlan

/-- Whether there is nothing to patch. -/
def isEmpty (plan : PatchPlan) : Bool :=
  plan.internal.isEmpty && RuntimeSymbol.all.all fun symbol => (plan.symbolic symbol).isEmpty

/-- The plan without any patch. -/
def clear (plan : PatchPlan) : PatchPlan :=
  { plan with internal := [], symbolic := fun _ => [] }

/-- Adds a reference to `target` that is patched in as an absolute address. -/
def addInternal (plan : PatchPlan) (site target : Nat) : PatchPlan :=
  { plan with internal := plan.internal ++ [{ site, target }] }

/-- Adds a reference to a runtime symbol. -/
def addSymbolic (plan : PatchPlan) (symbol : RuntimeSymbol) (site : Nat) : PatchPlan :=
  { plan with
    symbolic := fun other =>
      if other = symbol then plan.symbolic other ++ [site] else plan.symbolic other }

/-- The sites of every runtime symbol, in enumeration order. -/
def symbolLists (plan : PatchPlan) : List (List Nat) :=
  RuntimeSymbol.all.map plan.symbolic

/-- The symbol sites that lists in enumeration order stand for; there has to be one list each. -/
def sitesOfLists (lists : List (List Nat)) : Except ImageFault (RuntimeSymbol → List Nat) :=
  if lists.length = RuntimeSymbol.count then
    .ok fun symbol => lists[symbol.index]?.getD []
  else
    .error (.symbolLists lists.length)

/-- Moves every site and every internal target by `distance`. -/
def shift (plan : PatchPlan) (distance : Nat) : PatchPlan where
  trapOffset := plan.trapOffset
  internal := plan.internal.map fun patch =>
    { patch with site := patch.site + distance, target := patch.target + distance }
  symbolic := fun symbol => (plan.symbolic symbol).map (· + distance)

/-- The patches of one plan followed by those of another. -/
def append (plan other : PatchPlan) : PatchPlan where
  trapOffset := plan.trapOffset
  internal := plan.internal ++ other.internal
  symbolic := fun symbol => plan.symbolic symbol ++ other.symbolic symbol

/-- The lists of a plan give back its symbol sites. -/
theorem sitesOfLists_symbolLists (plan : PatchPlan) :
    sitesOfLists plan.symbolLists = .ok plan.symbolic := by
  have hlength : plan.symbolLists.length = RuntimeSymbol.count := by
    simp [symbolLists, RuntimeSymbol.count]
  rw [sitesOfLists, if_pos hlength]
  congr 1
  funext symbol
  simp [symbolLists, RuntimeSymbol.getElem?_all_index]

end PatchPlan

end CompiledCode

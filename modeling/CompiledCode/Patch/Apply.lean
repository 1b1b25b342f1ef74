import CompiledCode.Patch.Plan

/-!
# Applying and erasing patches

Applying a plan at an address writes the address of every target into its site;
erasing it writes the placeholders back, so that the code can be saved and
patched again elsewhere. Both turn the plan into a list of single patches, in
the same order over the same sites, and run that list until a patch is refused.
The patches before the refused one stay in the code.

What a patch writes depends on the length of the code, never on its bytes.
-/

namespace CompiledCode

/-- One step of patching: bytes to write at an offset, or a reason to stop. -/
inductive Patch where
  /-- Writes bytes from an offset on. -/
  | write (offset : Nat) (content : Bytes)
  /-- Stops patching. -/
  | refuse (cause : Cause)
  deriving DecidableEq

/-- Code after patching, with the reason for stopping early if there was one. -/
structure Patched where
  /-- The code as patching left it. -/
  code : Bytes
  /-- Why patching stopped early. -/
  stopped : Option Cause := none
  deriving DecidableEq

namespace Patch

/-- Runs one patch; a write has to fit into the code. -/
def run (code : Bytes) : Patch → Except Cause Bytes
  | write offset content =>
    if offset + content.length ≤ code.length then .ok (code.overwrite offset content)
    else .error (.patchOutOfBounds offset code.length)
  | refuse cause => .error cause

/-- Runs patches in order up to the first one that is refused. -/
def runAll : List Patch → Bytes → Patched
  | [], code => { code }
  | patch :: rest, code =>
    match patch.run code with
    | .ok next => runAll rest next
    | .error cause => { code, stopped := some cause }

end Patch

/-- A 64-bit address read as a signed number. -/
def signed64 (address : Nat) : Int :=
  Int.bmod address UInt64.size

/-- The value of every patch site of a symbol while the code is unpatched. -/
def symbolPlaceholder : Nat := UInt64.size - 1

namespace InternalPatch

/-- The patch for code of the given length at `base`. -/
def applied (patch : InternalPatch) (base length : Nat) : Patch :=
  if length < patch.target then .refuse (.patchOutOfBounds patch.target length)
  else
    match patch.encoding with
    | .absolute => .write patch.site (littleEndian 8 (base + patch.target))
    | .relative32 =>
      let distance := signed64 (base + patch.target) - signed64 (base + patch.site + 4)
      if -0x80000000 ≤ distance ∧ distance < 0x80000000 then
        .write patch.site (littleEndian 4 (distance % UInt32.size).toNat)
      else .refuse (.displacementOverflow patch.site)

/-- The patch that restores the placeholder, which is the offset of the target. -/
def erased (patch : InternalPatch) : Patch :=
  .write patch.site (littleEndian patch.encoding.width patch.target)

end InternalPatch

/-- What symbols resolve to: a trap handler takes precedence over the table for trap handling. -/
def resolveSymbol (symbols : SymbolTable) (trapHandler : Option UInt64) : SymbolTable :=
  fun symbol =>
    match symbol, trapHandler with
    | .handleTrap, some address => some address
    | _, _ => symbols symbol

/-- The patches for the sites of one symbol; a symbol without sites need not resolve. -/
def symbolPatches (resolve : SymbolTable) (symbol : RuntimeSymbol) (sites : List Nat) :
    List Patch :=
  if sites.isEmpty then []
  else
    match resolve symbol with
    | none => [.refuse (.unresolvedSymbol symbol)]
    | some address => sites.map (.write · (littleEndian 8 address.toNat))

namespace PatchPlan

/-- The patches for code of the given length at `base`. -/
def applied (plan : PatchPlan) (base length : Nat) (resolve : SymbolTable) : List Patch :=
  plan.internal.map (·.applied base length) ++
    RuntimeSymbol.all.flatMap fun symbol => symbolPatches resolve symbol (plan.symbolic symbol)

/-- The patches that restore every placeholder. -/
def erased (plan : PatchPlan) : List Patch :=
  plan.internal.map (·.erased) ++
    RuntimeSymbol.all.flatMap fun symbol =>
      (plan.symbolic symbol).map (.write · (littleEndian 8 symbolPlaceholder))

/-- Patches the addresses into code that will live at `base`. -/
def apply (plan : PatchPlan) (base : Nat) (symbols : SymbolTable) (trapHandler : Option UInt64)
    (code : Bytes) : Patched :=
  Patch.runAll (plan.applied base code.length (resolveSymbol symbols trapHandler)) code

/-- Writes the placeholders back into patched code. -/
def erase (plan : PatchPlan) (code : Bytes) : Patched :=
  Patch.runAll plan.erased code

end PatchPlan

namespace Patched

/-- The code, if every patch went in. -/
def complete (patched : Patched) : Except Cause Bytes :=
  match patched.stopped with
  | none => .ok patched.code
  | some cause => .error cause

end Patched

namespace Patch

/-- Running a patch keeps the length of the code. -/
theorem length_run {code next : Bytes} {patch : Patch} (h : patch.run code = .ok next) :
    next.length = code.length := by
  cases patch with
  | refuse cause => simp [run] at h
  | write offset content =>
    rw [run] at h
    split at h
    · next hfits =>
      cases h
      exact Bytes.length_overwrite hfits
    · cases h

/-- Running patches keeps the length of the code, whether or not they stop early. -/
theorem length_runAll (patches : List Patch) (code : Bytes) :
    (runAll patches code).code.length = code.length := by
  induction patches generalizing code with
  | nil => rfl
  | cons patch rest ih =>
    rw [runAll]
    split
    · next next hrun => rw [ih, length_run hrun]
    · rfl

end Patch

/-- Patched code is as long as the code. -/
theorem PatchPlan.length_apply (plan : PatchPlan) (base : Nat) (symbols : SymbolTable)
    (trapHandler : Option UInt64) (code : Bytes) :
    (plan.apply base symbols trapHandler code).code.length = code.length :=
  Patch.length_runAll _ _

end CompiledCode

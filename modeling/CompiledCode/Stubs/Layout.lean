import CompiledCode.Stubs.Basic

/-!
# Stubs laid out by rule

The simplest stub compiler puts stubs of fixed sizes one after the other, filled
with one byte, and patches each of them alike. Its rules can make it leave
entries out, fail, or answer with given stubs, which is what callers have to
cope with.
-/

namespace CompiledCode

/-- Rules for laying out entry stubs. -/
structure StubLayout where
  /-- The size of an interpreter entry. -/
  interp : Nat := 16
  /-- The size of a jit entry; without size there is none. -/
  jit : Nat := 16
  /-- The number of unused bytes after each stub. -/
  pad : Nat := 0
  /-- The functions whose interpreter entry is left out. -/
  leftOut : List Nat := []
  /-- Whether the stubs are laid out from the last request to the first. -/
  reverse : Bool := false
  /-- The byte that stubs are filled with. -/
  fill : UInt8 := 0xcc
  /-- What to patch in each stub, relative to its start. -/
  plan : PatchPlan := {}
  /-- The stubs to answer instead of laying any out. -/
  explicit : Option CompiledStubs := none
  /-- The failure to answer with. -/
  failure : Option Cause := none
  /-- The kinds of block for which the failure is answered; every kind unless given. -/
  failingKinds : Option (List BlockKind) := none
  /-- Whether an install is asked for when stubs into an optimized tier are made. -/
  asksForInstall : Bool := false

namespace StubLayout

/-- The size that each stub takes. -/
def stride (layout : StubLayout) : Nat := layout.interp + layout.jit + layout.pad

/-- The code ranges of the stub for a function at an offset. -/
def rangesAt (layout : StubLayout) (func offset : Nat) : List CodeRange :=
  let entry (kind : RangeKind) (start size : Nat) : CodeRange :=
    { kind, func := some func, start, stop := start + size, tierEntry := start }
  (if layout.leftOut.contains func then [] else [entry .interpEntry offset layout.interp]) ++
    if layout.jit = 0 then [] else [entry .jitEntry (offset + layout.interp) layout.jit]

/-- The stubs for functions laid out from an offset on. -/
def layOut (layout : StubLayout) : (offset : Nat) → List Nat → CompiledStubs
  | _, [] => {}
  | offset, func :: rest =>
    let others := layout.layOut (offset + layout.stride) rest
    { code := List.replicate layout.stride layout.fill ++ others.code
      plan := (layout.plan.shift offset).append others.plan
      tables := { ranges := layout.rangesAt func offset ++ others.tables.ranges } }

/-- Whether stubs for a kind of block fail. -/
def fails (layout : StubLayout) (kind : BlockKind) : Bool :=
  layout.failingKinds.all (·.contains kind)

/-- The stubs for some functions, regardless of failures. -/
def stubsFor (layout : StubLayout) (funcs : List Nat) : CompiledStubs :=
  match layout.explicit with
  | some stubs => stubs
  | none => layout.layOut 0 (if layout.reverse then funcs.reverse else funcs)

/-- The stub compiler that follows the rules. -/
def compiler (layout : StubLayout) : StubCompiler where
  compile block requests :=
    match layout.failure with
    | some cause =>
      if layout.fails block.kind then .error { cause }
      else .ok (layout.stubsFor (requests.map (·.func)))
    | none => .ok (layout.stubsFor (requests.map (·.func)))
  asksForInstall block := layout.asksForInstall && block.kind = .optimizedTier

end StubLayout

end CompiledCode

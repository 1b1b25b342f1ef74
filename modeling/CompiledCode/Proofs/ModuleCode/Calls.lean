import CompiledCode.Proofs.ModuleCode.Install
import Mathlib.Logic.Function.Basic

/-!
# Calls on the code of one module at the same time

Any number of calls install an optimized tier or ask for interpreter entries of the same
module code, one step at a time and in any order. What a call does by itself in one step is
an operation on the running code; in between it waits for the lock on the blocks and entry
stubs, which lookups share and everything else takes for itself. A call that is violated
panics, and if it had the lock to itself then nobody gets the lock any more.

Between the steps of the calls, other modules may change the engine in any way, and other
parts of the runtime may fill the dispatch tables. A stub compiler that asks for an install
makes a call of its own, so that the compilers of the calls here do not ask themselves.
-/

namespace CompiledCode

/-- A stub compiler that does not itself ask for an install. -/
structure QuietCompiler extends StubCompiler where
  /-- The compiler never asks. -/
  quiet : ∀ block, asksForInstall block = false

/-- How far a call is that installs an optimized tier. -/
inductive InstallPhase where
  /-- The call has not begun. -/
  | idle
  /-- The call is the one that may install a tier. -/
  | begun (compiler : QuietCompiler) (plan : PatchPlan) (compiled : CompiledBlock)
  /-- The tier is in memory, and the call waits for the lock. -/
  | built (compiler : QuietCompiler) (tier2 : Block)
  /-- The call has the lock. -/
  | locked (compiler : QuietCompiler) (tier2 : Block)
  /-- The tier is registered. -/
  | registered (compiler : QuietCompiler) (tier2 : Block)
  /-- The entry stubs are made anew. -/
  | upgraded (tier2 : Block) (stubIndex : Option Nat)
  /-- The tier is published. -/
  | published (tier2 : Block) (stubIndex : Option Nat)
  /-- The dispatch tables lead to the tier. -/
  | redirected
  /-- The entry stubs could not be made. -/
  | stopped (tier2 : Block) (failure : Failure)
  /-- The tier is not registered, be it any more, and the call still has the lock. -/
  | withdrawn (failure : Failure)
  /-- The call does not have the lock any more or never got to it, and has to give way. -/
  | leaving (failure : Failure)
  /-- The call has installed the tier. -/
  | succeeded
  /-- Another install was under way or done. -/
  | refused
  /-- The call has failed. -/
  | failed (failure : Failure)
  /-- The call was violated. -/
  | panicked

namespace InstallPhase

/-- Whether the call has the lock to itself. -/
def holds : InstallPhase → Bool
  | locked _ _ | registered _ _ | upgraded _ _ | published _ _ | redirected | stopped _ _
  | withdrawn _ => true
  | _ => false

/-- Whether the call was violated. -/
def isPanicked : InstallPhase → Bool
  | panicked => true
  | _ => false

/-- The first step of an install. -/
def enter (compiler : QuietCompiler) (plan : PatchPlan) (compiled : CompiledBlock) :
    Op Running InstallPhase := do
  match ← Op.attempt (Running.beginInstall compiled.kind) with
  | .ok () => return begun compiler plan compiled
  | .error _ => return refused

/-- What the call does next by itself, if it does not wait for anything. -/
def work? : InstallPhase → Option (Op Running InstallPhase)
  | begun compiler plan compiled => some do
    match ← Op.attempt (Running.buildOptimized plan compiled) with
    | .ok tier2 => return built compiler tier2
    | .error failure => return leaving failure
  | locked compiler tier2 => some do
    match ← Op.attempt (Running.addBlock tier2) with
    | .ok _ => return registered compiler tier2
    | .error failure => return withdrawn failure
  | registered compiler tier2 => some do
    match ← Op.attempt (Running.upgradeStubs compiler.toStubCompiler tier2) with
    | .ok stubIndex => return upgraded tier2 stubIndex
    | .error failure => return stopped tier2 failure
  | upgraded tier2 stubIndex => some do
    Running.change (·.withTier2 (.published tier2))
    return published tier2 stubIndex
  | published tier2 stubIndex => some do
    Running.redirect tier2 stubIndex
    return redirected
  | stopped tier2 failure => some do
    Running.popBlock tier2
    return withdrawn failure
  | leaving failure => some do
    Running.change (·.withTier2 .absent)
    return failed failure
  | _ => none

/-- What the call is up to once it has given the lock back, if that is next. -/
def unlocked? : InstallPhase → Option InstallPhase
  | redirected => some succeeded
  | withdrawn failure => some (leaving failure)
  | _ => none

end InstallPhase

/-- How far a call is that asks for the interpreter entry of a function. -/
inductive EntryPhase where
  /-- The call has not begun. -/
  | idle
  /-- The call has read the export, which has no eager entry. -/
  | exported (func : Nat) (entry : FuncExport)
  /-- The function has a jit entry, so that the call looks for a stub first. -/
  | hinted (func : Nat) (entry : FuncExport)
  /-- The call waits for the lock. -/
  | waiting (func : Nat) (entry : FuncExport)
  /-- The call has the lock. -/
  | locked (func : Nat) (entry : FuncExport)
  /-- There is no stub yet. -/
  | missing (func : Nat)
  /-- The call has its result, and still has the lock. -/
  | leaving (func : Nat) (result : Except Failure (FuncExport × Nat))
  /-- The call has returned. -/
  | returned (func : Nat) (result : Except Failure (FuncExport × Nat))
  /-- The call was violated. -/
  | panicked

namespace EntryPhase

/-- Whether the call has the lock to itself. -/
def holds : EntryPhase → Bool
  | locked _ _ | missing _ | leaving _ _ => true
  | _ => false

/-- Whether the call was violated. -/
def isPanicked : EntryPhase → Bool
  | panicked => true
  | _ => false

/-- The first step of a call: the export is read, and its eager entry taken if it has one. -/
def enter (func : Nat) : Op Running EntryPhase := do
  let block := (← Running.current).provider func
  let (_, entry) ← Op.ofChecked (block.exportOf func)
  match entry.eagerEntry with
  | some index =>
    let range ← Op.ofChecked (block.rangeAt index)
    return returned func (.ok (entry, block.addressOf range.start))
  | none => return exported func entry

/-- A look for a stub, which shares the lock with others. -/
def look (func : Nat) (entry : FuncExport) : Op Running EntryPhase := do
  match ← Op.ofChecked ((← Running.current).lazyEntry func) with
  | some address => return returned func (.ok (entry, address))
  | none => return waiting func entry

/-- What the call does next by itself, if it does not wait for anything. -/
def work? (compiler : QuietCompiler) : EntryPhase → Option (Op Running EntryPhase)
  | exported func entry => some do
    let jit ← Op.ofChecked ((← Running.current).dispatch.jitEntry func)
    return if jit.isSome then hinted func entry else waiting func entry
  | locked func entry => some do
    match ← Op.ofChecked ((← Running.current).lazyEntry func) with
    | some address => return leaving func (.ok (entry, address))
    | none => return missing func
  | missing func => some do
    let block := (← Running.current).provider func
    let (exportIndex, entry) ← Op.ofChecked (block.exportOf func)
    match ← Op.attempt (Op.during (.creatingEntryStub func)
      (Running.createStub compiler.toStubCompiler exportIndex entry block)) with
    | .ok address => return leaving func (.ok (entry, address))
    | .error failure => return leaving func (.error failure)
  | _ => none

end EntryPhase

/-- The stub compiler that an install calls when it goes on, if it does. -/
def InstallPhase.compiler? : InstallPhase → Option QuietCompiler
  | registered compiler _ => some compiler
  | _ => none

/-- The function that a step of a call for an interpreter entry has made the first stub of, if it has added
a block of stubs. -/
def EntryPhase.stubbed? (before after : ModuleCode) : EntryPhase → Option Nat
  | missing func => if before.blocks.length < after.blocks.length then some func else none
  | _ => none

/-- Who has the lock on the blocks and entry stubs for itself. -/
inductive Lock (Installer Caller : Type) where
  /-- Nobody has. -/
  | free
  /-- An install has. -/
  | installer (installer : Installer)
  /-- A call for an interpreter entry has. -/
  | caller (caller : Caller)
  /-- A call panicked while it had the lock, so that nobody gets it any more. -/
  | poisoned

/-- The running code of a module with the calls on it. -/
structure Scene (Installer Caller : Type) where
  /-- The code in its engine. -/
  running : Running
  /-- The lock. -/
  lock : Lock Installer Caller := .free
  /-- How far each install is. -/
  installs : Installer → InstallPhase := fun _ => .idle
  /-- How far each call for an interpreter entry is. -/
  entries : Caller → EntryPhase := fun _ => .idle

/-- What a step is part of, with the stub compiler that it may call. -/
inductive CallEvent (Installer Caller : Type) where
  /-- A step of an install. -/
  | install (installer : Installer) (compiler : Option QuietCompiler)
  /-- An install gets the lock. -/
  | lock (installer : Installer)
  /-- A step of a call for an interpreter entry, with the function that it has made the first stub of. -/
  | entry (caller : Caller) (compiler : Option QuietCompiler) (stubbed : Option Nat)
  /-- A step of something else. -/
  | outside

/-- The stub compiler that a step may call. -/
def CallEvent.compiler? {Installer Caller : Type} : CallEvent Installer Caller → Option QuietCompiler
  | install _ compiler => compiler
  | lock _ => none
  | entry _ compiler _ => compiler
  | outside => none

namespace Scene

variable {Installer Caller : Type} [DecidableEq Installer] [DecidableEq Caller]

/-- The scene after an install has moved on; the lock is of no use after a panic under it. -/
def moveInstall (s : Scene Installer Caller) (i : Installer) (next : InstallPhase)
    (running : Running) : Scene Installer Caller :=
  { s with
    running
    lock := if next.isPanicked && (s.installs i).holds then .poisoned else s.lock
    installs := Function.update s.installs i next }

/-- The scene after a call for an interpreter entry has moved on. -/
def moveEntry (s : Scene Installer Caller) (c : Caller) (next : EntryPhase) (running : Running) :
    Scene Installer Caller :=
  { s with
    running
    lock := if next.isPanicked && (s.entries c).holds then .poisoned else s.lock
    entries := Function.update s.entries c next }

/-- The scene after an operation of an install. -/
def afterInstall (s : Scene Installer Caller) (i : Installer) :
    EStateM.Result Fault Running InstallPhase → Scene Installer Caller
  | .ok next running => s.moveInstall i next running
  | .error _ running => s.moveInstall i .panicked running

/-- The scene after an operation of a call for an interpreter entry. -/
def afterEntry (s : Scene Installer Caller) (c : Caller) :
    EStateM.Result Fault Running EntryPhase → Scene Installer Caller
  | .ok next running => s.moveEntry c next running
  | .error _ running => s.moveEntry c .panicked running

/-- The steps that calls make. -/
inductive Step : Scene Installer Caller → CallEvent Installer Caller → Scene Installer Caller →
    Prop where
  | beginInstall {s} (i : Installer) (compiler : QuietCompiler) (plan : PatchPlan)
      (compiled : CompiledBlock) (hidle : s.installs i = .idle) :
      Step s (.install i none)
        (s.afterInstall i (InstallPhase.enter compiler plan compiled s.running))
  | install {s} (i : Installer) (op : Op Running InstallPhase)
      (hwork : (s.installs i).work? = some op) :
      Step s (.install i (s.installs i).compiler?) (s.afterInstall i (op s.running))
  | lockInstall {s} (i : Installer) (compiler : QuietCompiler) (tier2 : Block)
      (hbuilt : s.installs i = .built compiler tier2) (hfree : s.lock = .free) :
      Step s (.lock i)
        { s with
          lock := .installer i
          installs := Function.update s.installs i (.locked compiler tier2) }
  | poisonInstall {s} (i : Installer) (compiler : QuietCompiler) (tier2 : Block)
      (hbuilt : s.installs i = .built compiler tier2) (hpoisoned : s.lock = .poisoned) :
      Step s (.install i none) { s with installs := Function.update s.installs i .panicked }
  | unlockInstall {s} (i : Installer) (next : InstallPhase)
      (hnext : (s.installs i).unlocked? = some next) :
      Step s (.install i none)
        { s with lock := .free, installs := Function.update s.installs i next }
  | beginEntry {s} (c : Caller) (func : Nat) (hidle : s.entries c = .idle) :
      Step s (.entry c none none) (s.afterEntry c (EntryPhase.enter func s.running))
  | entry {s} (c : Caller) (compiler : QuietCompiler) (op : Op Running EntryPhase)
      (hwork : (s.entries c).work? compiler = some op) :
      Step s
        (.entry c (some compiler) ((s.entries c).stubbed? s.running.code
          (s.afterEntry c (op s.running)).running.code))
        (s.afterEntry c (op s.running))
  | look {s} (c : Caller) (func : Nat) (found : FuncExport)
      (hhinted : s.entries c = .hinted func found) (hfree : s.lock = .free) :
      Step s (.entry c none none) (s.afterEntry c (EntryPhase.look func found s.running))
  | lockEntry {s} (c : Caller) (func : Nat) (found : FuncExport)
      (hwaiting : s.entries c = .waiting func found) (hfree : s.lock = .free) :
      Step s (.entry c none none)
        { s with
          lock := .caller c
          entries := Function.update s.entries c (.locked func found) }
  | poisonEntry {s} (c : Caller) (func : Nat) (found : FuncExport)
      (hwaiting : s.entries c = .waiting func found ∨ s.entries c = .hinted func found)
      (hpoisoned : s.lock = .poisoned) :
      Step s (.entry c none none) { s with entries := Function.update s.entries c .panicked }
  | unlockEntry {s} (c : Caller) (func : Nat) (result : Except Failure (FuncExport × Nat))
      (hleaving : s.entries c = .leaving func result) :
      Step s (.entry c none none)
        { s with
          lock := .free
          entries := Function.update s.entries c (.returned func result) }
  | outside {s} (engine : Engine) (dispatch : DispatchTables) :
      Step s .outside
        { s with running := { engine, code := s.running.code.withDispatch dispatch } }

/-- The scenes that steps lead to, with the steps taken, latest first. -/
inductive Run (s : Scene Installer Caller) :
    List (CallEvent Installer Caller) → Scene Installer Caller → Prop where
  | start : Run s [] s
  | step {trace t event u} (run : Run s trace t) (step : Step t event u) : Run s (event :: trace) u

end Scene

end CompiledCode

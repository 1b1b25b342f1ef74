import CompiledCode.Proofs.ModuleCode.Batches
import CompiledCode.Proofs.ModuleCode.Create
import CompiledCode.Stubs.Layout

/-!
# The life of the code of a module

Once it is created or loaded, the code of a module is asked for interpreter entries, given an
optimized tier, and offered jit entries from outside, in any order and any number of times, with a
new compiler each time. Calls succeed or fail; one that is violated has no successor. In between,
other modules may change the engine in any way.

A call that fails leaves nothing but notes, so that there are four things that a call may come to.
What holds of module code all its life is proved of each of them.

Jit entries are for life: a slot keeps the first entry that it gets, wherever that comes from, and
an offer is answered with it.
-/

namespace CompiledCode

/-- A call on the code of a module. -/
inductive ModuleCall where
  /-- The interpreter entry of a function is asked for. -/
  | entry (compiler : StubCompiler) (func : Nat)
  /-- An optimized tier is to be installed. -/
  | install (compiler : StubCompiler) (plan : PatchPlan) (compiled : CompiledBlock)
  /-- A function is offered a jit entry from outside. -/
  | offer (func target : Nat)

namespace ModuleCall

/-- What a call does to a module in its engine, apart from its answer. -/
def run : ModuleCall → Op Running Unit
  | entry compiler func => do
    let _ ← Running.interpEntry compiler func
  | install compiler plan compiled => Running.installOptimized compiler plan compiled
  | offer func target => do
    let _ ← Running.onDispatch (DispatchTables.setJitEntryIfEmpty func target)

/-- The compiler that a call may ask for stubs. -/
def compiler? : ModuleCall → Option StubCompiler
  | entry compiler _ => some compiler
  | install compiler _ _ => some compiler
  | offer _ _ => none

/-- Whether a call comes from outside of the module and its compilers. -/
def isOffer : ModuleCall → Bool
  | offer _ _ => true
  | _ => false

/-- Whether a call in some engine succeeds or fails and turns the code of a module into other code. -/
def Turns (call : ModuleCall) (before after : ModuleCode) : Prop :=
  ∃ engine result t, call.run.ending { engine, code := before } = (result, t) ∧
    (∀ violation, result ≠ .error (.violation violation)) ∧ t.code = after

/-- What a call may come to. -/
inductive Outcome (before : ModuleCode) : ModuleCall → ModuleCode → Prop where
  /-- Nothing is left of the call but notes. -/
  | notes {call : ModuleCall} {compiler : StubCompiler} {after : ModuleCode}
      (h : before.Marked compiler after) : Outcome before call after
  /-- The first stub of a function is made. -/
  | stub {compiler : StubCompiler} {func : Nat} {batch : StubBatch} {after : ModuleCode}
      (h : before.AddsStub compiler func batch after) : Outcome before (entry compiler func) after
  /-- An optimized tier is published. -/
  | tier {compiler : StubCompiler} {plan : PatchPlan} {compiled : CompiledBlock} {tier2 : Block}
      {made : Option StubBatch} {after : ModuleCode} (habsent : before.tier2 = .absent)
      (htier1 : before.tier1.kind = .baselineTier) (hkind : compiled.kind = .optimizedTier)
      (h : before.AddsTier compiler compiled tier2 made after) :
      Outcome before (install compiler plan compiled) after
  /-- A jit entry is offered, and the slot has one now. -/
  | offer {func target : Nat} {after : ModuleCode}
      (h : before.dispatch.Offered (fun other entry => other = func ∧ entry = target) after.dispatch)
      (hcontent : after.content = before.content.withDispatch after.dispatch) :
      Outcome before (offer func target) after

/-- Asking for an entry makes the first stub of a function, or leaves nothing but notes. -/
theorem interpEntry_outcome (compiler : StubCompiler) (func : Nat) (s : Running) :
    (Running.interpEntry compiler func).Ensures s
      (fun _ t => Outcome s.code (entry compiler func) t.code)
      (fun fault t => fault.isViolation = false → Outcome s.code (entry compiler func) t.code) := by
  refine ((Running.interpEntry_adds func).and (Running.interpEntry_enlarged func)).mono
    (fun _ t ht => ?_) (fun _ _ ht hfailed => .notes (ht.2 hfailed))
  obtain rfl | ⟨batch, hadds⟩ := ht.1
  · have hmarked : t.code.Marked compiler t.code := .of_content rfl
    exact .notes hmarked
  · exact .stub hadds

/-- A call that is run comes to one of four things unless it is violated. -/
theorem run_outcome (call : ModuleCall) (s : Running) :
    call.run.Ensures s (fun _ t => Outcome s.code call t.code)
      (fun fault t => fault.isViolation = false → Outcome s.code call t.code) := by
  cases call with
  | entry compiler func =>
    exact (interpEntry_outcome compiler func s).bind (fun _ _ ht => (Op.ensures_pure _).mpr ht)
      (fun _ _ ht => ht)
  | install compiler plan compiled =>
    refine ((Running.installOptimized_adds plan compiled).and
      (Running.installOptimized_enlarged plan compiled)).mono (fun _ t ht => ?_)
      (fun _ t ht hfailed => .notes (?_ : s.code.Marked compiler t.code))
    · obtain ⟨⟨habsent, htier1, hkind, tier2, made, hadds⟩, -⟩ := ht
      exact .tier habsent htier1 hkind hadds
    · obtain ⟨-, rfl⟩ | ⟨-, calls, hcontent⟩ := ht.2 hfailed
      · exact .of_content rfl
      · exact ⟨calls, s.code.tier2, .inl rfl, hcontent⟩
  | offer func target =>
    have hoffered := DispatchTables.setJitEntryIfEmpty_offered func target s.code.dispatch
    have hviolated := DispatchTables.setJitEntryIfEmpty_ensures func target s.code.dispatch
    refine (Running.onDispatch_content (hoffered.and hviolated)).bind
      (fun _ t ht => (Op.ensures_pure _).mpr (.offer ht.1.1.2.2 ht.2)) (fun _ t ht hfailed => ?_)
    rw [ht.1.2.1] at hfailed
    contradiction

/-- Every call that succeeds or fails comes to one of four things. -/
theorem Turns.outcome {call : ModuleCall} {before after : ModuleCode} (h : call.Turns before after) :
    Outcome before call after := by
  obtain ⟨engine, result, t, hend, hcalm, rfl⟩ := h
  have houtcome := (run_outcome call ⟨engine, before⟩).ending hend
  cases result with
  | ok value => exact houtcome
  | error fault =>
    cases fault with
    | failure failure => exact houtcome rfl
    | violation violation => exact absurd rfl (hcalm violation)

/-- Whatever a call comes to, it takes no jit entry away. -/
theorem Outcome.jit_kept {call : ModuleCall} {before after : ModuleCode} (h : Outcome before call after)
    {func entry : Nat} (hentry : before.dispatch.jitEntry func = .ok (some entry)) :
    after.dispatch.jitEntry func = .ok (some entry) := by
  rw [DispatchTables.jitEntry_eq_some_iff] at hentry ⊢
  obtain ⟨hslot, hsome⟩ := hentry
  refine ⟨?_, hsome⟩
  cases h with
  | notes h =>
    obtain ⟨calls, tier2, -, hcontent⟩ := h
    have hdispatch : after.dispatch = before.dispatch := (congrArg ModuleCode.dispatch hcontent :)
    rw [hdispatch]
    exact hslot
  | stub h => exact h.offered.kept hslot hsome
  | tier _ _ _ h => exact h.jitGrown.kept hslot hsome
  | offer h _ => exact h.kept hslot hsome

/-- A call that is run and succeeds turns the code of the module into what is left. -/
theorem turns_of_ok {call : ModuleCall} {s t : Running} (h : call.run s = .ok () t) :
    call.Turns s.code t.code :=
  ⟨s.engine, .ok (), t, Op.ending_of_ok h, nofun, rfl⟩

end ModuleCall

namespace ModuleCode

/-- Whether functions are provided by the same blocks. -/
structure SameProviders (code after : ModuleCode) : Prop where
  imports : after.imports = code.imports
  sharedStubs : after.sharedStubs = code.sharedStubs
  tier1 : after.tier1 = code.tier1
  tier2 : after.tier2.block? = code.tier2.block?

section SameProviders

variable {code after : ModuleCode}

/-- Whatever the function, its provider is the same. -/
theorem SameProviders.provider_eq (h : code.SameProviders after) : after.provider = code.provider := by
  funext func
  rw [provider, provider, h.imports, h.sharedStubs, h.tier1, h.tier2]

/-- Notes leave the providers as they are. -/
theorem Marked.sameProviders {compiler : StubCompiler} (h : code.Marked compiler after) :
    code.SameProviders after := by
  obtain ⟨calls, tier2, hasked, hcontent⟩ := h
  obtain rfl : after.tier2 = tier2 := (congrArg ModuleCode.tier2 hcontent :)
  exact
    { imports := (congrArg ModuleCode.imports hcontent :)
      sharedStubs := (congrArg ModuleCode.sharedStubs hcontent :)
      tier1 := (congrArg ModuleCode.tier1 hcontent :)
      tier2 := hasked.block? }

/-- The first stub of a function leaves the providers as they are. -/
theorem AddsStub.sameProviders {compiler : StubCompiler} {func : Nat} {batch : StubBatch}
    (h : code.AddsStub compiler func batch after) : code.SameProviders after := by
  obtain ⟨note, tier2, -, hasked, hcontent⟩ := h.content
  obtain rfl : after.tier2 = tier2 := (congrArg ModuleCode.tier2 hcontent :)
  exact
    { imports := (congrArg ModuleCode.imports hcontent :)
      sharedStubs := (congrArg ModuleCode.sharedStubs hcontent :)
      tier1 := (congrArg ModuleCode.tier1 hcontent :)
      tier2 := hasked.block? }

/-- Other dispatch tables leave the providers as they are. -/
theorem sameProviders_of_dispatch {dispatch : DispatchTables}
    (hcontent : after.content = code.content.withDispatch dispatch) : code.SameProviders after := by
  have htier2 : after.tier2 = code.tier2 := (congrArg ModuleCode.tier2 hcontent :)
  exact
    { imports := (congrArg ModuleCode.imports hcontent :)
      sharedStubs := (congrArg ModuleCode.sharedStubs hcontent :)
      tier1 := (congrArg ModuleCode.tier1 hcontent :)
      tier2 := congrArg OptimizedTier.block? htier2 }

end SameProviders

/-- Whether the code of a module has just been created or loaded. -/
inductive Started (code : ModuleCode) : Prop where
  /-- The code is created from its parts. -/
  | created {settings : Settings} {symbols : SymbolTable} {parts : ModuleParts} {engine after : Engine}
      (hend : create settings symbols parts engine = .ok code after) : Started code
  /-- The code is loaded from an image. -/
  | loaded {settings : Settings} {symbols : SymbolTable} {bytes : Bytes} {engine after : Engine}
      (hend : load settings symbols bytes engine = .ok code after) : Started code

/-- Calls that turn the code of a module into other code one after the other. -/
inductive Runs : List ModuleCall → ModuleCode → ModuleCode → Prop where
  /-- No call has been made. -/
  | nil {code : ModuleCode} : Runs [] code code
  /-- One call more. -/
  | snoc {calls : List ModuleCall} {call : ModuleCall} {code before after : ModuleCode}
      (hrun : Runs calls code before) (hturn : call.Turns before after) :
      Runs (calls ++ [call]) code after

variable {calls : List ModuleCall} {start code later : ModuleCode}

/-- Code that has started is created from some parts, whether or not it is loaded. -/
theorem Started.exists_create (h : start.Started) :
    ∃ settings symbols parts engine after, create settings symbols parts engine = .ok start after := by
  cases h with
  | created hend => exact ⟨_, _, _, _, _, hend⟩
  | loaded hend =>
    obtain ⟨_, _, _, _, _, -, -, -, hcreate⟩ := load_eq_ok hend
    exact ⟨_, _, _, _, _, hcreate⟩

/-- Calls that are run and succeed one after the other are a run. -/
theorem Runs.of_ok {more : List ModuleCall} {s t : Running} (hrun : Runs calls start s.code)
    (h : more.forM ModuleCall.run s = .ok () t) : Runs (calls ++ more) start t.code := by
  induction more generalizing calls s with
  | nil =>
    obtain rfl : s = t := (EStateM.Result.ok.inj h).2
    rwa [List.append_nil]
  | cons call rest ih =>
    change EStateM.bind _ _ s = _ at h
    rw [EStateM.bind] at h
    split at h
    · rename_i u hcall
      rw [List.append_cons]
      exact ih (hrun.snoc (ModuleCall.turns_of_ok hcall)) h
    · contradiction

/-- A module that is created, and called without a failure, is at the end of a run. -/
theorem exists_run {settings : Settings} {symbols : SymbolTable} {parts : ModuleParts} {engine : Engine}
    {test : Running → Bool}
    (h : (create settings symbols parts).succeeds engine (fun code engine =>
      (calls.forM ModuleCall.run).succeeds { engine, code } fun _ t => test t) = true) :
    ∃ start created t, create settings symbols parts engine = .ok start created ∧
      Runs calls start t.code ∧ test t = true := by
  obtain ⟨start, created, hcreate, hcalls⟩ := Op.exists_of_succeeds h
  obtain ⟨_, t, hend, htest⟩ := Op.exists_of_succeeds hcalls
  exact ⟨start, created, t, hcreate, Runs.nil.of_ok hend, htest⟩

/-- No run takes a jit entry away. -/
theorem Runs.jit_kept (hrun : Runs calls code later) {func entry : Nat}
    (hentry : code.dispatch.jitEntry func = .ok (some entry)) :
    later.dispatch.jitEntry func = .ok (some entry) := by
  induction hrun with
  | nil => exact hentry
  | snoc _ hturn ih => exact hturn.outcome.jit_kept (ih hentry)

/-- Jit entries stay for life. At any time, an offer of one to a function is answered, and the answer
is the jit entry of the function from then on. -/
theorem jit_entries_stay (hrun : Runs calls code later) :
    (∀ func entry, code.dispatch.jitEntry func = .ok (some entry) →
      later.dispatch.jitEntry func = .ok (some entry)) ∧
    ∀ func target, target ≠ 0 → func < later.dispatch.size →
      ∃ entry tables,
        DispatchTables.setJitEntryIfEmpty func target later.dispatch = .ok entry tables ∧
        ∀ more last, Runs more (later.withDispatch tables) last →
          last.dispatch.jitEntry func = .ok (some entry) := by
  refine ⟨fun func entry hentry => hrun.jit_kept hentry, fun func target htarget hfunc => ?_⟩
  have hoffer := DispatchTables.setJitEntryIfEmpty_offered func target later.dispatch
  cases hend : DispatchTables.setJitEntryIfEmpty func target later.dispatch with
  | ok entry tables =>
    -- The answer is what the slot holds then, whoever filled it, and no later call takes it away.
    obtain ⟨hsome, hslot, -⟩ := hoffer.of_ok hend
    refine ⟨entry, tables, rfl, fun more last hmore => hmore.jit_kept ?_⟩
    exact DispatchTables.jitEntry_eq_some_iff.mpr ⟨hslot, hsome⟩
  | error fault tables =>
    rcases hoffer.of_error hend with hzero | hsize
    · exact absurd hzero htarget
    · exact absurd hfunc (Nat.not_lt.mpr hsize)

/-- A function that has been offered a jit entry keeps it when a stub comes with another one, and
when it is offered a third. -/
theorem jit_entries_stay_once_offered :
    ∃ (layout : StubLayout) (code later : ModuleCode), Runs [.entry layout.compiler 0] code later ∧
      code.dispatch.jitEntry 0 = .ok (some 0x5000) ∧ later.blocks.length = code.blocks.length + 1 ∧
      later.dispatch.jitEntry 0 = .ok (some 0x5000) ∧
      ∃ entry tables, DispatchTables.setJitEntryIfEmpty 0 0x6000 later.dispatch = .ok entry tables := by
  let layout : StubLayout := {}
  let code := oneFunction.withDispatch { mode := .once, tiering := [], jit := [0x5000] }
  have hends : ([ModuleCall.entry layout.compiler 0].forM ModuleCall.run).succeeds
      { engine := .oneFunction, code }
      (fun _ t => t.code.blocks.length = code.blocks.length + 1 && t.code.dispatch.size = 1) = true := by
    decide +kernel
  obtain ⟨_, t, hrun, htest⟩ := Op.exists_of_succeeds hends
  simp only [Bool.and_eq_true, decide_eq_true_eq] at htest
  have hruns : Runs [.entry layout.compiler 0] code t.code := Runs.nil.of_ok hrun
  obtain ⟨hkept, hoffer⟩ := jit_entries_stay hruns
  obtain ⟨entry, tables, hanswer, -⟩ := hoffer 0 0x6000 (by decide) (by rw [htest.2]; decide)
  exact ⟨layout, code, t.code, hruns, rfl, htest.1, hkept 0 0x5000 rfl, entry, tables, hanswer⟩

end ModuleCode

end CompiledCode

import CompiledCode.Proofs.ModuleCode.Install

/-!
# Operations that take no room for entry stubs

Of all that calls do on the code of a module, one operation takes room in the segments for entry
stubs, which is the claim. What follows a claim leaves all segments as they are, however it ends, and
fails for few reasons: a change of protection is refused, a patch does not fit or is for a symbol
without an address, an offset is too large, or there is no memory for a table or the registry.
Compiling stubs, looking for their entries and getting memory for a segment come before the claim, and
so does placing a tier.
-/

namespace CompiledCode

/-- Whether a cause is one that keeps stubs with room from being put there and added. -/
def Cause.followsClaim : Cause → Bool
  | outOfMemory _ => true
  | protectionRefused _ => true
  | unresolvedSymbol _ => true
  | patchOutOfBounds _ _ => true
  | displacementOverflow _ => true
  | offsetTooLarge => true
  | _ => false

/-- Whether a failure is one of putting stubs where they have got room, or of entering their block into
the registry. -/
structure Failure.FollowsClaim (failure : Failure) : Prop where
  cause : failure.cause.followsClaim = true
  activities : ∀ activity ∈ failure.activities, activity = .registeringBlock

/-- A cause by itself is that of a step after a claim if it is one of those. -/
theorem Failure.followsClaim_of_cause {cause : Cause} (h : cause.followsClaim = true) :
    Failure.FollowsClaim { cause } :=
  ⟨h, List.forall_mem_nil _⟩

/-- A failure still follows a claim if a block was being entered into the registry. -/
theorem Failure.FollowsClaim.during {failure : Failure} (h : failure.FollowsClaim) :
    (failure.during .registeringBlock).FollowsClaim where
  cause := h.cause
  activities := List.forall_mem_cons.mpr ⟨rfl, h.activities⟩

/-- Whether a fault is a violation, or else a failure for one of the given reasons. -/
def Fault.Within (reasons : Failure → Prop) : Fault → Prop
  | failure chain => reasons chain
  | violation _ => True

/-- A violation is one whatever the reasons are. -/
theorem Fault.within_of_isViolation {reasons : Failure → Prop} {fault : Fault}
    (h : fault.isViolation = true) : fault.Within reasons := by
  cases fault with
  | failure failure => contradiction
  | violation violation => trivial

/-- A fault is within what all failures are. -/
theorem Fault.within_of_forall {reasons : Failure → Prop} {fault : Fault}
    (h : ∀ failure, reasons failure) : fault.Within reasons := by
  cases fault with
  | failure failure => exact h failure
  | violation violation => trivial

/-- A fault that is no violation is a failure for one of the reasons. -/
theorem Fault.Within.of_calm {reasons : Failure → Prop} {fault : Fault} (h : fault.Within reasons)
    (hcalm : fault.isViolation = false) : ∃ failure, fault = .failure failure ∧ reasons failure := by
  cases fault with
  | failure failure => exact ⟨failure, rfl, h⟩
  | violation violation => contradiction

/-- A fault is a violation if there is no reason to fail. -/
theorem Fault.Within.isViolation {fault : Fault} (h : fault.Within fun _ => False) :
    fault.isViolation = true := by
  cases fault with
  | failure failure => exact h.elim
  | violation violation => rfl

/-- A fault is within whatever its reasons come to. -/
theorem Fault.Within.mono {reasons reasons' : Failure → Prop} {fault : Fault} (h : fault.Within reasons)
    (himp : ∀ failure, reasons failure → reasons' failure) : fault.Within reasons' := by
  cases fault with
  | failure failure => exact himp failure h
  | violation violation => trivial

namespace Op

variable {σ τ α β γ δ : Type} {view : σ → γ} {reasons : Failure → Prop}

/-- Whether an operation leaves what is looked at as it is, and fails for some reasons alone, which are
those of a step after a claim unless others are given. -/
def Frugal (view : σ → γ) (op : Op σ α) (reasons : Failure → Prop := Failure.FollowsClaim) : Prop :=
  ∀ s, op.Ensures s (fun _ t => view t = view s)
    (fun fault t => view t = view s ∧ fault.Within reasons)

/-- What is looked at is the same after a frugal operation. -/
theorem Frugal.ensures {op : Op σ α} {s : σ} {onValue : α → σ → Prop} {onFault : Fault → σ → Prop}
    (h : op.Frugal view reasons) (hvalue : ∀ value t, view t = view s → onValue value t)
    (hfault : ∀ fault t, view t = view s → fault.Within reasons → onFault fault t) :
    op.Ensures s onValue onFault :=
  (h s).mono hvalue fun fault t ht => hfault fault t ht.1 ht.2

/-- An operation without reasons to fail leaves what is looked at as it is, unless it is violated. -/
theorem Frugal.ensures_of_violates {op : Op σ α} {s : σ} {onValue : α → σ → Prop}
    {onFault : Fault → σ → Prop} (h : op.Frugal view fun _ => False)
    (hvalue : ∀ value t, view t = view s → onValue value t)
    (hviolation : ∀ violation t, onFault (.violation violation) t) : op.Ensures s onValue onFault := by
  refine h.ensures hvalue fun fault t _ hwithin => ?_
  cases fault with
  | failure failure => exact hwithin.elim
  | violation violation => exact hviolation violation t

/-- An operation that leaves more as it is leaves less as it is. -/
theorem Frugal.map {op : Op σ α} (h : op.Frugal view reasons) (f : γ → δ) :
    op.Frugal (fun s => f (view s)) reasons :=
  fun _ => h.ensures (fun _ _ ht => congrArg f ht) fun _ _ ht hwithin => ⟨congrArg f ht, hwithin⟩

/-- An operation without reasons to fail is violated if it does not succeed. -/
theorem Frugal.isViolation {op : Op σ α} (h : op.Frugal view fun _ => False) (s : σ) :
    op.Ensures s (fun _ _ => True) (fun fault _ => fault.isViolation = true) :=
  h.ensures (fun _ _ _ => trivial) fun _ _ _ hwithin => hwithin.isViolation

theorem frugal_pure (value : α) : (pure value : Op σ α).Frugal view reasons :=
  fun _ => (ensures_pure value).mpr rfl

theorem frugal_get : (get : Op σ σ).Frugal view reasons := fun _ => ensures_get.mpr rfl

theorem frugal_set (t : σ) : (set t : Op σ PUnit).Frugal (fun _ => ()) reasons :=
  fun _ => (ensures_set t).mpr rfl

theorem frugal_modify {f : σ → σ} (h : ∀ s, view (f s) = view s) :
    (modify f : Op σ PUnit).Frugal view reasons :=
  fun s => (ensures_modify f).mpr (h s)

theorem frugal_fail {cause : Cause} (h : cause.followsClaim = true) : (fail cause : Op σ α).Frugal view :=
  fun _ => (ensures_fail cause).mpr ⟨rfl, Failure.followsClaim_of_cause h⟩

theorem frugal_violate (violation : Violation) : (violate violation : Op σ α).Frugal view reasons :=
  fun _ => (ensures_violate violation).mpr ⟨rfl, trivial⟩

theorem frugal_require (condition : Bool) (violation : Violation) :
    (require condition violation : Op σ Unit).Frugal view reasons := by
  cases condition with
  | true => exact frugal_pure ()
  | false => exact frugal_violate violation

theorem frugal_ofChecked (result : Except Violation α) :
    (ofChecked result : Op σ α).Frugal view reasons := by
  cases result with
  | ok value => exact frugal_pure value
  | error violation => exact frugal_violate violation

/-- An attempt is frugal if the cause of its failure is that of a step after a claim. -/
theorem frugal_ofAttempt {result : Except Cause α}
    (h : ∀ cause, result = .error cause → cause.followsClaim = true) :
    (ofAttempt result : Op σ α).Frugal view := by
  cases result with
  | ok value => exact frugal_pure value
  | error cause => exact frugal_fail (h cause rfl)

/-- One operation after another is frugal if both are. -/
theorem Frugal.bind {op : Op σ β} {next : β → Op σ α} (h : op.Frugal view reasons)
    (hnext : ∀ value, (next value).Frugal view reasons) : (op >>= next).Frugal view reasons :=
  fun s => (h s).bind
    (fun value _ ht => (hnext value).ensures (fun _ _ hu => hu.trans ht)
      fun _ _ hu hwithin => ⟨hu.trans ht, hwithin⟩)
    (fun _ _ h => h)

/-- A loop is frugal if every round is. -/
theorem Frugal.forM {round : β → Op σ PUnit} {inputs : List β}
    (h : ∀ input ∈ inputs, (round input).Frugal view reasons) :
    (inputs.forM round).Frugal view reasons :=
  fun _ => Ensures.forM (fun input hin _ ht => (h input hin).ensures (fun _ _ hu => hu.trans ht)
    fun _ _ hu hwithin => ⟨hu.trans ht, hwithin⟩) rfl

/-- Whatever is being done, an operation is frugal if that goes with its reasons to fail. -/
theorem Frugal.during {op : Op σ α} (h : op.Frugal view reasons) {activity : Activity}
    (hreasons : ∀ failure, reasons failure → reasons (failure.during activity)) :
    (during activity op).Frugal view reasons :=
  fun s => (h s).during_of fun failure _ hfault => ⟨hfault.1, hreasons failure hfault.2⟩

/-- Undoing something is frugal, too. -/
theorem Frugal.onFailure {op : Op σ α} {undo : Op σ Unit} (h : op.Frugal view reasons)
    (hundo : undo.Frugal view reasons) : (onFailure op undo).Frugal view reasons := by
  intro s
  refine (ensures_onFailure op undo).mpr ((h s).mono (fun _ _ hvalue => hvalue) fun fault t hfault => ?_)
  cases fault with
  | failure failure =>
    exact hundo.ensures (fun _ _ hu => ⟨hu.trans hfault.1, hfault.2⟩)
      fun _ _ hu hwithin => ⟨hu.trans hfault.1, hwithin⟩
  | violation violation => exact hfault

/-- An operation on a part of the state is frugal if it leaves of the part what is looked at. -/
theorem Frugal.focus {part : τ → δ} {op : Op τ α} (h : op.Frugal part reasons) {get : σ → τ}
    {update : τ → σ → σ} (hview : ∀ s t, part t = part (get s) → view (update t s) = view s) :
    (focus get update op).Frugal view reasons :=
  fun s => (ensures_focus get update op).mpr ((h (get s)).mono (fun _ t ht => hview s t ht)
    fun _ t ht => ⟨hview s t ht.1, ht.2⟩)

/-- An operation that is violated if it does not succeed is frugal where nothing is looked at. -/
theorem frugal_of_isViolation {op : Op σ α}
    (h : ∀ s, op.Ensures s (fun _ _ => True) (fun fault _ => fault.isViolation = true)) :
    op.Frugal (fun _ => ()) reasons :=
  fun s => (h s).mono (fun _ _ _ => rfl) fun _ _ hfault => ⟨rfl, Fault.within_of_isViolation hfault⟩

end Op

open Op

namespace Memory

/-- Asking for room in a table takes none for stubs. -/
theorem frugal_askRoom {reasons : Failure → Prop} : askRoom.Frugal Memory.inUse reasons :=
  fun _ => askRoom_claims.mono (fun _ _ h => inUse_of_claims h) (fun _ _ h => h.elim)

theorem frugal_grow (bytes : Nat) : (grow bytes).Frugal Memory.inUse := by
  rw [grow]
  split
  · exact frugal_pure ()
  · refine frugal_askRoom.bind fun room => ?_
    split
    · exact frugal_pure ()
    · exact frugal_fail rfl

theorem frugal_protect (access : Access) (address length : Nat) :
    (protect access address length).Frugal Memory.inUse := by
  intro memory
  rw [protect, ensures_bind, ensures_get, ensures_bind, ensures_set]
  split
  · exact (ensures_pure _).mpr rfl
  · exact (ensures_fail _).mpr ⟨rfl, Failure.followsClaim_of_cause rfl⟩

end Memory

theorem Segment.frugal_protect (segment : Segment) (access : Access) (offset bytes : Nat) :
    (segment.protect access offset bytes).Frugal Memory.inUse := by
  refine (frugal_require _ _).bind fun _ => (frugal_require _ _).bind fun _ => ?_
  split
  · exact frugal_pure ()
  · exact Memory.frugal_protect _ _ _

/-- Patches stop because one of them does not fit, or gives a reason of its own. -/
theorem Patch.stopped_eq_some {patches : List Patch} {code : Bytes} {cause : Cause}
    (h : (runAll patches code).stopped = some cause) :
    .refuse cause ∈ patches ∨ ∃ offset length, cause = .patchOutOfBounds offset length := by
  induction patches generalizing code with
  | nil => contradiction
  | cons patch rest ih =>
    rw [runAll] at h
    split at h
    · exact (ih h).imp_left (List.mem_cons_of_mem patch)
    · rename_i reason hrun
      obtain rfl : reason = cause := Option.some.inj h
      cases patch with
      | refuse other =>
        obtain rfl : other = reason := Except.error.inj hrun
        exact .inl List.mem_cons_self
      | write offset content =>
        rw [run] at hrun
        split at hrun
        · contradiction
        · exact .inr ⟨_, _, (Except.error.inj hrun).symm⟩

/-- A patch of a plan is refused for a cause that follows a claim. -/
theorem PatchPlan.followsClaim_of_stopped {plan : PatchPlan} {base : Nat} {symbols : SymbolTable}
    {trapHandler : Option UInt64} {code : Bytes} {cause : Cause}
    (h : (plan.apply base symbols trapHandler code).stopped = some cause) :
    cause.followsClaim = true := by
  obtain hin | ⟨offset, length, rfl⟩ := Patch.stopped_eq_some h
  case inr => rfl
  rcases List.mem_append.mp hin with hinternal | hsymbolic
  · obtain ⟨patch, -, hpatch⟩ := List.mem_map.mp hinternal
    rw [InternalPatch.applied] at hpatch
    split at hpatch
    · obtain rfl := Patch.refuse.inj hpatch
      rfl
    · split at hpatch
      · contradiction
      · dsimp only at hpatch
        split at hpatch
        · contradiction
        · obtain rfl := Patch.refuse.inj hpatch
          rfl
  · obtain ⟨symbol, -, hpatch⟩ := List.mem_flatMap.mp hsymbolic
    rw [symbolPatches] at hpatch
    split at hpatch
    · simp at hpatch
    · split at hpatch
      · rw [Patch.refuse.inj (List.mem_singleton.mp hpatch)]
        rfl
      · simp at hpatch

/-- Putting code where there is room for it takes no more room. -/
theorem Segment.frugal_install (segment : Segment) (offset : Nat) (code : Bytes) (plan : PatchPlan)
    (symbols : SymbolTable) (trapHandler : Option UInt64) :
    (segment.install offset code plan symbols trapHandler).Frugal Memory.inUse := by
  have hround : (ofAttempt (Page.roundUp code.length) : Op Memory Nat).Frugal Memory.inUse := by
    refine frugal_ofAttempt fun cause hcause => ?_
    rw [Page.roundUp] at hcause
    split at hcause
    · contradiction
    · rw [← Except.error.inj hcause]
      rfl
  refine hround.bind fun pages => frugal_get.bind fun _ => (frugal_require _ _).bind fun _ =>
    (segment.frugal_protect _ _ _).bind fun _ => (frugal_modify fun _ => by rfl).bind fun _ =>
      (segment.frugal_protect _ _ _).bind fun _ => ?_
  split
  · exact frugal_pure ()
  · rename_i cause hstopped
    exact frugal_fail (PatchPlan.followsClaim_of_stopped hstopped)

theorem Block.frugal_make (kind : BlockKind) (segment : Segment) (start stop : Nat)
    (tables : CodeTables) : (make kind segment start stop tables).Frugal Memory.inUse :=
  frugal_get.bind fun _ => (frugal_ofChecked _).bind fun _ =>
    (Memory.frugal_grow _).bind fun _ => frugal_pure _

/-- Binding a block is violated if it does not succeed. -/
theorem Engine.bindBlock_violates (owner : Nat) (block : Block) (engine : Engine) :
    (bindBlock owner block).Ensures engine (fun _ e => e.memory = engine.memory)
      (fun fault e => fault.isViolation = true ∧ e.memory = engine.memory) := by
  rw [bindBlock, ensures_bind, ensures_get, ensures_bind, ensures_ofChecked]
  split
  · rw [ensures_bind, ensures_set, ensures_pure]
  · exact ⟨rfl, rfl⟩

namespace RegionMap

variable {ρ : Type} {reasons : Failure → Prop}

/-- Editing a map is violated if it does not succeed. -/
theorem frugal_update (change : List (RegionEntry ρ) → Except Violation (List (RegionEntry ρ))) :
    (update change).Frugal (fun _ => ()) reasons := by
  have hedit : (edit change).Frugal (fun _ => ()) reasons :=
    frugal_get.bind fun _ => (frugal_ofChecked _).bind fun _ => frugal_set _
  exact hedit.bind fun _ => (frugal_modify fun _ => by rfl).bind fun _ => hedit

theorem frugal_insert [Region ρ] (region : ρ) (room : Bool) :
    (insert region room).Frugal fun _ => () := by
  refine (frugal_require _ _).bind fun _ => ?_
  split
  · exact frugal_update _
  · exact frugal_get.bind fun _ => (frugal_ofChecked _).bind fun _ => frugal_fail rfl

theorem frugal_remove [Region ρ] (region : ρ) : (remove region).Frugal (fun _ => ()) reasons :=
  (frugal_update _).bind fun _ => frugal_get.bind fun _ => frugal_pure _

end RegionMap

namespace Running

/-- The segments for entry stubs, and code memory. -/
def storage (s : Running) : List Segment × Memory := (s.code.lazySegments, s.engine.memory)

/-- The segments for entry stubs, and what is in use of every segment. -/
def room (s : Running) : List Segment × (Nat → Nat) :=
  (s.code.lazySegments, s.engine.memory.inUse)

/-- As much is in use of code memory that is the same. -/
theorem room_of_storage {s t : Running} (h : t.storage = s.storage) : t.room = s.room :=
  congrArg (fun (segments, memory) => (segments, memory.inUse)) h

/-- What leaves all of code memory alone takes no room. -/
theorem frugal_of_storage {α : Type} {op : Op Running α} {reasons : Failure → Prop}
    (h : op.Frugal storage reasons) : op.Frugal room reasons :=
  h.map fun (segments, memory) => (segments, memory.inUse)

section Frugal

variable {α γ : Type} {view : Running → γ} {reasons : Failure → Prop}

theorem frugal_current : current.Frugal view reasons := frugal_get.bind fun _ => frugal_pure _

theorem frugal_change {f : ModuleCode → ModuleCode}
    (h : ∀ s : Running, view { s with code := f s.code } = view s) : (change f).Frugal view reasons :=
  frugal_modify h

theorem frugal_onMemory {op : Op Memory α} (h : op.Frugal Memory.inUse reasons) :
    (onMemory op).Frugal room reasons :=
  h.focus fun s _ ht => congrArg (s.code.lazySegments, ·) ht

theorem frugal_onRegistry {op : Op (RegionMap Block) α} (h : op.Frugal (fun _ => ()) reasons) :
    (onRegistry op).Frugal storage reasons :=
  h.focus fun _ _ _ => rfl

theorem frugal_onBlockMap {op : Op (RegionMap Block) α} (h : op.Frugal (fun _ => ()) reasons) :
    (onBlockMap op).Frugal storage reasons :=
  h.focus fun _ _ _ => rfl

/-- Filling dispatch tables takes no room for stubs if it is violated whenever it does not succeed. -/
theorem frugal_onDispatch {op : Op DispatchTables α}
    (h : ∀ tables, op.Ensures tables (fun _ _ => True) (fun fault _ => fault.isViolation = true)) :
    (onDispatch op).Frugal room reasons :=
  (frugal_of_isViolation h).focus fun _ _ _ => rfl

theorem frugal_bindBlock (owner : Nat) (block : Block) :
    (onEngine (Engine.bindBlock owner block)).Frugal room := by
  have hbind : (Engine.bindBlock owner block).Frugal Engine.memory := fun engine =>
    (Engine.bindBlock_violates owner block engine).mono (fun _ _ h => h)
      fun _ _ h => ⟨h.2, Fault.within_of_isViolation h.1⟩
  exact hbind.focus fun s e he => congrArg (fun memory => (s.code.lazySegments, memory.inUse)) he

theorem frugal_unmapBlock (block : Block) : (unmapBlock block).Frugal storage reasons :=
  (frugal_onBlockMap (RegionMap.frugal_remove _)).bind fun _ => frugal_pure _

theorem frugal_unregisterBlock (block : Block) : (unregisterBlock block).Frugal storage reasons :=
  (frugal_onRegistry (RegionMap.frugal_remove _)).bind fun _ => frugal_pure _

theorem frugal_registerBlock (block : Block) : (registerBlock block).Frugal room := by
  rw [registerBlock]
  split
  · exact frugal_pure ()
  · have hask : (onMemory Memory.askRoom).Frugal room := frugal_onMemory Memory.frugal_askRoom
    have hmap (now : Bool) : (onBlockMap (RegionMap.insert block now)).Frugal room :=
      frugal_of_storage (frugal_onBlockMap (RegionMap.frugal_insert block now))
    have hinsert (now : Bool) :
        (during .registeringBlock (onRegistry (RegionMap.insert block now))).Frugal room :=
      (frugal_of_storage (frugal_onRegistry (RegionMap.frugal_insert block now))).during
        fun _ h => h.during
    exact hask.bind fun now => (hmap now).bind fun _ => hask.bind fun room =>
      (hinsert room).onFailure (frugal_of_storage (frugal_unmapBlock block))

/-- Adding a block takes no room for stubs. -/
theorem frugal_addBlock (block : Block) : (addBlock block).Frugal room :=
  (frugal_onMemory (Memory.frugal_grow _)).bind fun _ => (frugal_registerBlock block).bind fun _ =>
    frugal_current.bind fun _ => (frugal_change fun _ => by rfl).bind fun _ => frugal_pure _

/-- Putting stubs where room is claimed for them takes no more room. -/
theorem frugal_putStubs (stubs : CompiledStubs) (entries : List StubEntries) (segment : Segment)
    (offset : Nat) : (putStubs stubs entries segment offset).Frugal room := by
  have hdistance : (ofAttempt (tableDistance offset) : Op Running Nat).Frugal room := by
    refine frugal_ofAttempt fun cause hcause => ?_
    rw [tableDistance] at hcause
    split at hcause
    · contradiction
    · rw [← Except.error.inj hcause]
      rfl
  exact frugal_current.bind fun _ => (frugal_onMemory (segment.frugal_install _ _ _ _ _)).bind fun _ =>
    hdistance.bind fun _ => (frugal_ofChecked _).bind fun _ =>
      (frugal_onMemory (Block.frugal_make _ _ _ _ _)).bind fun block =>
        (frugal_bindBlock _ block).bind fun bound => (frugal_addBlock bound).bind fun _ => frugal_pure _

/-- Taking a block back leaves code memory alone, and never fails. -/
theorem frugal_popBlock (block : Block) : (popBlock block).Frugal storage reasons := by
  refine frugal_current.bind fun _ => (frugal_change fun _ => by rfl).bind fun _ =>
    (frugal_require _ _).bind fun _ => ?_
  rw [withdrawBlock]
  split
  · exact frugal_pure ()
  · exact (frugal_unmapBlock block).bind fun _ => frugal_unregisterBlock block

/-- Offering a jit entry is violated if it does not succeed. -/
theorem isViolation_of_offer (func target : Nat) (tables : DispatchTables) :
    (do let _ ← DispatchTables.setJitEntryIfEmpty func target : Op DispatchTables Unit).Ensures tables
      (fun _ _ => True) (fun fault _ => fault.isViolation = true) :=
  (DispatchTables.setJitEntryIfEmpty_ensures _ _ _).bind (fun _ _ _ => (ensures_pure _).mpr trivial)
    (fun _ _ h => h.1)

/-- Pointing the dispatch tables at a code range is violated if it does not succeed. -/
theorem isViolation_of_redirectRange (block : Block) (range : CodeRange) (tables : DispatchTables) :
    (redirectRange block range).Ensures tables (fun _ _ => True)
      (fun fault _ => fault.isViolation = true) := by
  rw [redirectRange]
  split
  · rw [DispatchTables.setTiering, ensures_bind, ensures_get, ensures_bind, ensures_require]
    split
    · split
      · exact (ensures_set _).mpr trivial
      · exact (ensures_pure _).mpr trivial
    · rfl
  · exact isViolation_of_offer _ _ _
  · exact (ensures_pure _).mpr trivial

/-- Offering the jit entry of a code range is violated if it does not succeed. -/
theorem isViolation_of_offerRange (block : Block) (range : CodeRange) (tables : DispatchTables) :
    (offerRange block range).Ensures tables (fun _ _ => True)
      (fun fault _ => fault.isViolation = true) := by
  rw [offerRange]
  split
  · exact isViolation_of_offer _ _ _
  · exact (ensures_pure _).mpr trivial

/-- Offering the jit entry that comes with a stub takes no room for stubs. -/
theorem frugal_offerJitEntry (func : Nat) (stubs : Block) (jit : Option Nat) :
    (offerJitEntry func stubs jit).Frugal room reasons := by
  cases jit with
  | none => exact frugal_pure ()
  | some index =>
    refine (frugal_ofChecked _).bind fun range => ?_
    have hoffer : (onDispatch (DispatchTables.setJitEntryIfEmpty func
        (stubs.addressOf range.start))).Frugal room reasons :=
      frugal_onDispatch fun tables => (DispatchTables.setJitEntryIfEmpty_ensures _ _ tables).mono
        (fun _ _ _ => trivial) (fun _ _ h => h.1)
    exact hoffer.bind fun _ => frugal_pure _

/-- Filing a stub under its function takes no room for stubs, and never fails. -/
theorem frugal_fileStub (func : Nat) (kind : BlockKind) (position : Nat)
    (made : Nat × List StubEntries) : (fileStub func kind position made).Frugal room reasons := by
  obtain ⟨index, entries⟩ := made
  refine frugal_current.bind fun code => ?_
  split
  · exact (frugal_change fun _ => by rfl).bind fun _ => (frugal_offerJitEntry _ _ _).bind fun _ =>
      (frugal_ofChecked _).bind fun _ => frugal_pure _
  · exact frugal_violate _

/-- Pointing the dispatch tables at one code range after another takes no room for stubs. -/
theorem frugal_forM_onDispatch {round : CodeRange → Op DispatchTables Unit}
    (hround : ∀ range tables, (round range).Ensures tables (fun _ _ => True)
      (fun fault _ => fault.isViolation = true)) (ranges : List CodeRange) :
    (ranges.forM fun range => onDispatch (round range)).Frugal room reasons :=
  Frugal.forM fun range _ => frugal_onDispatch (hround range)

/-- Redirecting calls takes no room for stubs, and never fails. -/
theorem frugal_redirect (tier2 : Block) (stubIndex : Option Nat) :
    (redirect tier2 stubIndex).Frugal room reasons := by
  refine (frugal_forM_onDispatch (isViolation_of_redirectRange tier2) _).bind fun _ => ?_
  cases stubIndex with
  | none => exact frugal_pure ()
  | some index =>
    refine frugal_current.bind fun code => ?_
    split
    · exact frugal_violate _
    · exact frugal_forM_onDispatch (isViolation_of_offerRange _) _

end Frugal

end Running

end CompiledCode

import CompiledCode.Proofs.Block

/-!
# Failing for lack of memory alone

The operating system may refuse a mapping or a change of protection, and there may be no room for a
table to grow. How many requests have been refused so far is a number that never gets smaller. An
operation fails on refusals alone if it leaves that number as it was when it ends with a value, and
larger when it does not; placing code does so if the code can be patched wherever it may be put.
-/

namespace CompiledCode

/-- How many requests for memory, for another protection of it or for room have been refused so far. -/
def Memory.refusals (memory : Memory) : Nat :=
  memory.log.countP (!·.granted) +
    (List.range memory.growths).countP fun n => memory.refusedGrowths.contains (n + 1)

namespace Op

variable {σ α β : Type} {count : σ → Nat} {s : σ} {onValue : α → σ → Prop} {onFault : Fault → σ → Prop}

/-- Whether an operation ends with a value unless something that is counted happens. -/
def FailsOn (count : σ → Nat) (op : Op σ α) (s : σ) : Prop :=
  op.Ensures s (fun _ t => count t = count s) (fun _ t => count s < count t)

theorem failsOn_pure (value : α) : (pure value : Op σ α).FailsOn count s :=
  (ensures_pure value).mpr rfl

/-- One operation after another fails on the same if it starts with what the first one ensures. -/
theorem FailsOn.bind {op : Op σ α} {next : α → Op σ β} (h : op.FailsOn count s)
    (hop : op.Ensures s onValue onFault)
    (hnext : ∀ value t, onValue value t → (next value).FailsOn count t) :
    (op >>= next).FailsOn count s := by
  refine (h.and hop).bind (fun value t ht => ?_) (fun _ _ hfault => hfault.1)
  obtain ⟨hsame, ht⟩ := ht
  have hlater := hnext value t ht
  rw [FailsOn, hsame] at hlater
  exact hlater

/-- Noting an activity leaves alone what an operation fails on. -/
theorem FailsOn.during {op : Op σ α} (h : op.FailsOn count s) (activity : Activity) :
    (during activity op).FailsOn count s :=
  h.during_of fun _ _ hfault => hfault

end Op

namespace Memory

variable {memory : Memory}

/-- Asking for room is answered, and counts if there is none. -/
theorem askRoom_refusals (memory : Memory) :
    askRoom.Ensures memory
      (fun room after => after.refusals = memory.refusals + if room then 0 else 1)
      (fun _ _ => False) := by
  rw [askRoom, Op.ensures_bind, Op.ensures_get, Op.ensures_bind, Op.ensures_set, Op.ensures_pure]
  simp only [refusals, List.range_succ, List.countP_append, List.countP_singleton]
  cases memory.refusedGrowths.contains (memory.growths + 1) with
  | true => simp [Nat.add_assoc]
  | false => simp

/-- Growing a table fails if there is no room. -/
theorem grow_failsOn (memory : Memory) (bytes : Nat) : (grow bytes).FailsOn refusals memory := by
  rw [grow]
  split
  · exact (Op.ensures_pure ()).mpr rfl
  · refine (askRoom_refusals memory).bind (fun room after hafter => ?_) (fun _ _ h => h.elim)
    cases room with
    | true => exact (Op.ensures_pure ()).mpr hafter
    | false =>
      refine (Op.ensures_fail _).mpr ?_
      rw [hafter]
      exact Nat.lt_succ_self _

/-- A change of protection fails if it is refused. -/
theorem protect_failsOn (memory : Memory) (access : Access) (address length : Nat) :
    (protect access address length).FailsOn refusals memory := by
  refine (protect_ensures access address length).mono (fun _ after hafter => ?_) (fun _ after h => ?_)
  · rw [hafter]
    simp [refusals, withCall]
  · rw [h.2]
    simp [refusals, withCall]

/-- Mapping fails if it is refused. -/
theorem map_failsOn (memory : Memory) (length : Nat) : (map length).FailsOn refusals memory := by
  rw [map, Op.FailsOn, Op.ensures_bind, Op.ensures_get]
  split
  · rw [Op.ensures_bind, Op.ensures_set, Op.ensures_pure]
    simp [refusals]
  · rw [Op.ensures_bind, Op.ensures_set, Op.ensures_fail]
    simp [refusals]

end Memory

namespace Segment

variable {memory : Memory} {segment : Segment}

/-- A segment is obtained unless the mapping is refused. -/
theorem obtain_failsOn (memory : Memory) {bytes capacity : Nat} (h : Page.roundUp bytes = .ok capacity) :
    (obtain bytes).FailsOn Memory.refusals memory := by
  refine obtain_ensures_of (fun cause hrounding => ?_) (fun _ => rfl)
    fun capacity _ _ => Memory.map_failsOn memory capacity
  simp only [h, reduceCtorEq] at hrounding

/-- What may be done with a stretch of a segment is changed unless that is refused. -/
theorem protect_failsOn (memory : Memory) {offset bytes : Nat} (h : segment.Allows offset bytes)
    (access : Access) : (segment.protect access offset bytes).FailsOn Memory.refusals memory := by
  rw [Segment.protect, Op.FailsOn, Op.ensures_bind, Op.ensures_require, if_pos (decide_eq_true h.1),
    Op.ensures_bind, Op.ensures_require, if_pos h.2]
  split
  · exact (Op.ensures_pure ()).mpr rfl
  · exact Memory.protect_failsOn memory access _ _

/-- Code that can be patched is installed in what is in use unless a change of protection is refused. -/
theorem install_failsOn {offset pages : Nat} {code : Bytes}
    (hpages : Page.roundUp code.length = .ok pages)
    (htakes : segment.Takes memory offset pages) {plan : PatchPlan} {symbols : SymbolTable}
    {trapHandler : Option UInt64}
    (hpatch : (plan.apply (segment.base + offset) symbols trapHandler code).stopped = none) :
    (segment.install offset code plan symbols trapHandler).FailsOn Memory.refusals memory := by
  have hallows : segment.Allows offset pages := ⟨htakes.capacity, htakes.aligned⟩
  rw [install, Op.FailsOn, Op.ensures_bind, Op.ensures_ofAttempt, hpages]
  dsimp only
  rw [Op.ensures_bind, Op.ensures_get, Op.ensures_bind, Op.ensures_require,
    if_pos (decide_eq_true htakes.inUse)]
  refine (protect_failsOn memory hallows .writable).bind (Op.ensures_true _ _) fun _ writable _ => ?_
  rw [Op.FailsOn, Op.ensures_bind, Op.ensures_modify]
  refine (protect_failsOn (writable.write _ _) hallows .executable).bind (Op.ensures_true _ _)
    fun _ after _ => ?_
  rw [hpatch]
  exact Op.failsOn_pure ()

/-- Code is placed unless something is refused, if it can be patched wherever a mapping can be. -/
theorem place_failsOn (hsound : memory.Sound) {code : Bytes} {capacity pages : Nat}
    (hcapacity : Page.roundUp code.length = .ok capacity) (hpages : Page.roundUp capacity = .ok pages)
    {plan : PatchPlan} {symbols : SymbolTable} {trapHandler : Option UInt64}
    (hpatch : ∀ base, base + code.length ≤ Memory.endOfAddresses →
      (plan.apply base symbols trapHandler code).stopped = none) :
    (place code plan symbols trapHandler).FailsOn Memory.refusals memory := by
  have hobtain (needed : Nat) (hneeded : Page.roundUp code.length = .ok needed) :
      (obtain needed).Ensures memory
        (fun segment after => after.refusals = memory.refusals ∧ memory.Fresh segment ∧
          needed ≤ segment.capacity)
        (fun _ after => memory.refusals < after.refusals) := by
    obtain rfl := Except.ok.inj (hcapacity.symm.trans hneeded)
    refine ((obtain_failsOn memory hpages).and (obtain_ensures hsound capacity)).mono
      (fun segment after h => ?_) (fun _ _ h => h.1)
    obtain ⟨hsame, -, -, hfresh, hroom⟩ := h
    exact ⟨hsame, hfresh, hroom⟩
  refine place_ensures_of (fun cause hrounding => ?_) hobtain fun needed segment after hneeded h => ?_
  · simp only [hcapacity, reduceCtorEq] at hrounding
  obtain rfl := Except.ok.inj (hcapacity.symm.trans hneeded)
  obtain ⟨hsame, hfresh, hroom⟩ := h
  have hcode : code.length ≤ capacity := (Page.roundUp_eq_ok hcapacity).2.1
  have htakes : segment.Takes (after.setInUse segment.base capacity) 0 capacity := by
    refine ⟨rfl, (Nat.zero_add capacity).symm ▸ hroom, Nat.le_of_eq ?_⟩
    rw [Nat.zero_add]
    exact (if_pos rfl).symm
  have hbelow := hfresh.below
  have hsome : (plan.apply (segment.base + 0) symbols trapHandler code).stopped = none :=
    hpatch _ (by omega)
  have hnoted : (after.setInUse segment.base capacity).refusals = memory.refusals := hsame
  have hinstall := install_failsOn hcapacity htakes hsome
  rw [Op.FailsOn, hnoted] at hinstall
  exact hinstall

end Segment

namespace Block

variable {memory : Memory}

/-- A block that can be assembled is made unless there is no room for its coverage. -/
theorem make_failsOn {kind : BlockKind} {segment : Segment} {start stop : Nat} {tables : CodeTables}
    {block : Block} (h : assemble kind segment (segment.length memory) start stop tables = .ok block) :
    (make kind segment start stop tables).FailsOn Memory.refusals memory := by
  rw [make, Op.FailsOn, Op.ensures_bind, Op.ensures_get, Op.ensures_bind, Op.ensures_ofChecked, h]
  dsimp only
  exact (Memory.grow_failsOn memory _).bind (Op.ensures_true _ _) fun _ _ _ => Op.failsOn_pure block

/-- Shared stubs that are placed tell where traps are handled. -/
theorem place_trapCode (compiled : CompiledBlock) (plan : PatchPlan) (symbols : SymbolTable)
    (shared : Option Block) (memory : Memory) :
    (place compiled plan symbols shared).Ensures memory
      (fun block _ => compiled.kind = .sharedStubs → block.trapCode.isSome = true)
      (fun _ _ => True) := by
  refine (Op.ensures_true _ _).bind (fun segment _ _ => ?_) (fun _ _ _ => trivial)
  refine (Op.ensures_true _ _).bind (fun block _ _ => ?_) (fun _ _ _ => trivial)
  split
  · exact (Op.ensures_pure _).mpr fun _ => rfl
  · rename_i hkind
    exact (Op.ensures_pure _).mpr fun hshared => absurd hshared hkind

/-- Compiled code with tables in order is placed unless something is refused, if it can be patched
wherever a mapping can be. -/
theorem place_failsOn (hsound : memory.Sound) {compiled : CompiledBlock} {capacity pages : Nat}
    (hcapacity : Page.roundUp compiled.code.length = .ok capacity)
    (hpages : Page.roundUp capacity = .ok pages) (hinOrder : compiled.tables.disorder? = none)
    (hinside : rangesInside 0 compiled.code.length compiled.tables = true) {plan : PatchPlan}
    {symbols : SymbolTable} {shared : Option Block}
    (hpatch : ∀ base, base + compiled.code.length ≤ Memory.endOfAddresses →
      (plan.apply base symbols (Piece.ofBlock compiled plan symbols shared).trapHandler
        compiled.code).stopped = none) :
    (place compiled plan symbols shared).FailsOn Memory.refusals memory := by
  refine ((Segment.place_failsOn hsound hcapacity hpages hpatch).during _).bind
    ((Segment.place_ensures hsound ..).during_of fun _ _ h => h) fun segment m hm => ?_
  obtain ⟨-, -, -, -, hcode, -⟩ := hm
  obtain ⟨block, hblock⟩ :=
    exists_assemble_eq_ok ⟨Nat.zero_le _, hcode⟩ hinOrder hinside compiled.kind
  refine (make_failsOn hblock).bind (Op.ensures_true _ _) fun block' after _ => ?_
  split
  · exact Op.failsOn_pure _
  · exact Op.failsOn_pure _

end Block

end CompiledCode

import CompiledCode.ModuleCode.Install
import CompiledCode.Proofs.Block
import CompiledCode.Proofs.Dispatch
import CompiledCode.Proofs.ModuleCode.Blocks

/-!
# Rules for making entry stubs

Making entry stubs takes many steps: the compiler is called, and may ask for an install first, a
segment is found or made, the stubs are put there, and they are filed under their functions. What an
operation comes to follows from what its steps come to, and here is one rule for each operation that
says so. Whatever is to be shown of entry stubs is shown by these rules, step by step, and no proof
goes through the code of such an operation again.
-/

namespace CompiledCode.Running

variable {α : Type} {s : Running} {compiler : StubCompiler} {tier tier2 : Block}
  {requests : List StubRequest} {motive : Running → Prop} {onFault : Fault → Running → Prop}

/-- An install takes the place of the tier as it begins, if there is none yet. -/
theorem beginInstall_ensures_of {onValue : Unit → Running → Prop} {kind : BlockKind}
    (hviolation : ∀ violation : Violation, violation.ofMap = false → onFault (.violation violation) s)
    (hpresent : s.code.tier2 ≠ .absent →
      onFault (.failure { cause := .optimizedAlreadyInstalled }) s)
    (hbegin : s.code.tier1.kind = .baselineTier → kind = .optimizedTier → s.code.tier2 = .absent →
      onValue () { s with code := s.code.withTier2 .building }) :
    (beginInstall kind).Ensures s onValue onFault := by
  rw [beginInstall, Op.ensures_bind, ensures_current, Op.ensures_bind, Op.ensures_require]
  split
  case isFalse => exact hviolation _ rfl
  rename_i htier1
  rw [Op.ensures_bind, Op.ensures_require]
  split
  case isFalse => exact hviolation _ rfl
  rename_i hkind
  split
  · rename_i habsent
    rw [ensures_change]
    exact hbegin (decide_eq_true_eq.mp htier1) (decide_eq_true_eq.mp hkind) habsent
  · rename_i hbegun
    exact (Op.ensures_fail _).mpr (hpresent hbegun)

/-- The compiler is called for stubs, either at once or after it has asked for an install. -/
theorem compileStubs_ensures {onValue : CompiledStubs → Running → Prop}
    (hviolation : compiler.asksForInstall tier = true →
      ∀ violation : Violation, violation.ofMap = false → onFault (.violation violation) s)
    (hcall : ∀ sawOptimized install tier2, tier2 = s.code.tier2 ∨
        compiler.asksForInstall tier = true ∧ s.code.tier2 = .absent ∧ tier2 = .building →
      (callCompiler compiler tier requests sawOptimized install).Ensures
        { s with code := s.code.withTier2 tier2 } onValue onFault) :
    (compileStubs compiler tier requests).Ensures s onValue onFault := by
  have hplain := fun sawOptimized install => hcall sawOptimized install s.code.tier2 (.inl rfl)
  rw [compileStubs, Op.ensures_bind, ensures_current]
  dsimp only
  split
  · rename_i hasks
    rw [Op.ensures_bind, Op.ensures_map, Op.ensures_failure?]
    exact beginInstall_ensures_of (hviolation hasks) (fun _ => hplain _ _)
      fun _ _ habsent => hcall _ _ _ (.inr ⟨hasks, habsent, rfl⟩)
  · exact (Op.ensures_bind _ _).mpr ((Op.ensures_pure _).mpr (hplain _ _))

/-- A compiler that does not ask for an install is called at once. -/
theorem compileStubs_ensures_of_quiet {onValue : CompiledStubs → Running → Prop}
    (hquiet : compiler.asksForInstall tier = false)
    (hcall : ∀ sawOptimized install,
      (callCompiler compiler tier requests sawOptimized install).Ensures s onValue onFault) :
    (compileStubs compiler tier requests).Ensures s onValue onFault := by
  refine compileStubs_ensures (fun hasks => ?_) fun sawOptimized install tier2 hasked => ?_
  · rw [hquiet] at hasks
    contradiction
  · obtain rfl | ⟨hasks, -⟩ := hasked
    · exact hcall sawOptimized install
    · rw [hquiet] at hasks
      contradiction

/-- The last segment for stubs is used again if there is room in it; otherwise one is made. -/
theorem stubSegment_ensures {onValue : Segment → Running → Prop} {needed : Nat}
    (hreuse : ∀ segment, s.code.lazySegments.getLast? = some segment →
      segment.fits s.engine.memory needed = true → onValue segment s)
    (hrefused : ∀ cause : Cause, onFault (.failure { cause }) s)
    (hgrow : ∀ bytes, (onMemory (Memory.grow bytes)).Ensures s (fun _ => motive) onFault)
    (hreserve : ∀ t bytes, motive t → needed ≤ bytes →
      (Op.during .allocatingStubSegment (onMemory (Segment.reserve bytes))).Ensures t
        (fun segment u => onValue segment { u with code := u.code.withSegment segment }) onFault) :
    (stubSegment needed).Ensures s onValue onFault := by
  rw [stubSegment, Op.ensures_bind, Op.ensures_get]
  dsimp only
  split
  · rename_i segment hreusable
    obtain ⟨hlast, hfits⟩ := Option.filter_eq_some_iff.mp hreusable
    exact (Op.ensures_pure _).mpr (hreuse segment hlast hfits)
  rw [Op.ensures_bind, Op.ensures_ofAttempt]
  split
  case h_2 => exact hrefused _
  refine (hgrow _).bind (fun _ t ht => ?_) (fun _ _ h => h)
  refine (hreserve t _ ht (Nat.le_max_right _ _)).bind (fun segment u hu => ?_) (fun _ _ h => h)
  rw [Op.ensures_bind, ensures_change, Op.ensures_pure]
  exact hu

/-- Stubs are put where room is claimed for them by installing their code, moving their tables and adding
a block of both, unless an offset does not fit into 32 bits. -/
theorem putStubs_ensures {onValue : Nat × List StubEntries → Running → Prop} {stubs : CompiledStubs}
    {entries : List StubEntries} {segment : Segment} {offset : Nat}
    (hinstall : (onMemory (segment.install offset stubs.code stubs.plan s.code.symbols
      (s.code.trapCode.map UInt64.ofNat))).Ensures s (fun _ => motive) onFault)
    (hlarge : ∀ t, motive t → UInt32.size ≤ offset →
      onFault (.failure { cause := .offsetTooLarge }) t)
    (hoverflows : ∀ t, motive t → stubs.tables.overflows offset = true →
      onFault (.violation .offsetOverflow) t)
    (hmake : ∀ t, motive t → (onMemory (Block.make .lazyStubs segment offset
        (offset + stubs.code.length) ({ stubs.tables with funcs := {} }.shift offset))).Ensures t
      (fun block u => (onEngine (Engine.bindBlock s.code.number block)).Ensures u
        (fun bound v => (addBlock bound).Ensures v (fun index => onValue (index, entries)) onFault)
        onFault) onFault) :
    (putStubs stubs entries segment offset).Ensures s onValue onFault := by
  rw [putStubs, Op.ensures_bind, ensures_current]
  refine hinstall.bind (fun _ t ht => ?_) (fun _ _ h => h)
  rw [Op.ensures_bind, Op.ensures_ofAttempt]
  by_cases hsmall : offset < UInt32.size
  case neg =>
    rw [show tableDistance offset = .error .offsetTooLarge from if_neg hsmall]
    exact hlarge t ht (Nat.le_of_not_lt hsmall)
  rw [show tableDistance offset = .ok offset from if_pos hsmall]
  dsimp only
  rw [Op.ensures_bind, Op.ensures_ofChecked]
  split
  · rename_i moved hmoved
    obtain rfl := CodeTables.eq_of_checkedShift hmoved
    refine (hmake t ht).bind (fun block u hu => ?_) (fun _ _ h => h)
    refine hu.bind (fun bound v hv => ?_) (fun _ _ h => h)
    exact hv.bind (fun _ _ hw => (Op.ensures_pure _).mpr hw) (fun _ _ h => h)
  · rename_i violation hviolation
    obtain ⟨hoverflow, rfl⟩ := CodeTables.overflows_of_checkedShift hviolation
    exact hoverflows t ht hoverflow

/-- Stubs are placed if they have all entries, in a segment with room for their pages. -/
theorem placeStubs_ensures {onValue : Nat × List StubEntries → Running → Prop} {stubs : CompiledStubs}
    (hrefused : ∀ cause : Cause, onFault (.failure { cause }) s)
    (hput : ∀ entries needed, stubs.entriesFor requests = .ok entries →
      Page.roundUp stubs.code.length = .ok needed →
      (stubSegment needed).Ensures s (fun segment t => (onMemory (segment.claim needed)).Ensures t
        (fun offset u => (putStubs stubs entries segment offset).Ensures u onValue onFault) onFault)
        onFault) :
    (placeStubs stubs requests).Ensures s onValue onFault := by
  rw [placeStubs, Op.ensures_bind, Op.ensures_ofAttempt]
  split
  case h_2 => exact hrefused _
  rename_i entries hentries
  rw [Op.ensures_bind, Op.ensures_ofAttempt]
  split
  case h_2 => exact hrefused _
  rename_i needed hneeded
  exact (hput entries needed hentries hneeded).bind
    (fun _ _ ht => ht.bind (fun _ _ hu => hu) (fun _ _ h => h)) (fun _ _ h => h)

/-- Files the stub that was made for a function under it, which is the rest of making its first one. -/
def fileStub (func : Nat) (kind : BlockKind) (position : Nat) (made : Nat × List StubEntries) :
    Op Running Nat := do
  let (index, entries) := made
  match entries, (← current).blocks[index]? with
  | [found], some stubs =>
    change fun code =>
      code.withExports (code.lazyExports.insertIdx position
        { func, blockIndex := index, rangeIndex := found.interp, kind })
    offerJitEntry func stubs found.jit
    let range ← Op.ofChecked (stubs.rangeAt found.interp)
    return stubs.addressOf range.start
  | _, _ => Op.violate .unstated

/-- The first stub of a function is made if the function has none yet and can be called. -/
theorem createStub_ensures {onValue : Nat → Running → Prop} {exportIndex : Nat} {entry : FuncExport}
    (htwice : ∀ index, searchKey (·.func) s.code.lazyExports entry.func = .found index →
      onFault (.violation (.stubMadeTwice entry.func)) s)
    (hgrow : ∀ bytes, (onMemory (Memory.grow bytes)).Ensures s (fun _ => motive) onFault)
    (hrefused : ∀ t (cause : Cause), motive t → onFault (.failure { cause }) t)
    (hmake : ∀ t position address, motive t →
      searchKey (·.func) s.code.lazyExports entry.func = .vacant position →
      callee tier entry.func = .ok address →
      (createStubs compiler [{ func := entry.func, exportIndex, callee := address }] tier).Ensures t
        (fun made u => (fileStub entry.func tier.kind position made).Ensures u onValue onFault) onFault) :
    (createStub compiler exportIndex entry tier).Ensures s onValue onFault := by
  rw [createStub, Op.ensures_bind, ensures_current]
  dsimp only
  split
  case h_1 index hfound => exact (Op.ensures_violate _).mpr (htwice index hfound)
  rename_i position hvacant
  refine (hgrow _).bind (fun _ t ht => ?_) (fun _ _ h => h)
  rw [Op.ensures_bind, Op.ensures_ofAttempt]
  split
  case h_2 => exact hrefused t _ ht
  rename_i address hcallee
  exact (hmake t position address ht hvacant hcallee).bind (fun _ _ hu => hu) (fun _ _ h => h)

/-- A stub is filed and its jit entry offered, and its interpreter entry is looked up. -/
theorem fileStub_ensures {onValue : Nat → Running → Prop} {func position : Nat} {kind : BlockKind}
    {made : Nat × List StubEntries}
    (hunstated : (∀ found stubs, made.2 = [found] → s.code.blocks[made.1]? ≠ some stubs) →
      onFault (.violation .unstated) s)
    (hoffer : ∀ found stubs, made.2 = [found] → s.code.blocks[made.1]? = some stubs →
      (offerJitEntry func stubs found.jit).Ensures
        { s with code := s.code.withExports (s.code.lazyExports.insertIdx position
          { func, blockIndex := made.1, rangeIndex := found.interp, kind }) }
        (fun _ t =>
          (∀ range, stubs.rangeAt found.interp = .ok range → onValue (stubs.addressOf range.start) t) ∧
          ∀ violation, stubs.rangeAt found.interp = .error violation → onFault (.violation violation) t)
        onFault) :
    (fileStub func kind position made).Ensures s onValue onFault := by
  obtain ⟨index, entries⟩ := made
  rw [fileStub, Op.ensures_bind, ensures_current]
  split
  case h_2 hnot => exact (Op.ensures_violate _).mpr (hunstated fun found stubs => hnot found stubs)
  rename_i found stubs hstubs
  rw [Op.ensures_bind, ensures_change]
  refine (hoffer found stubs rfl hstubs).bind (fun _ t ht => ?_) (fun _ _ h => h)
  rw [Op.ensures_bind, Op.ensures_ofChecked]
  split
  · rename_i range hrange
    exact (Op.ensures_pure _).mpr (ht.1 range hrange)
  · rename_i violation hrange
    exact ht.2 violation hrange

/-- The stub of a block that is there, with its interpreter entry, is filed unless its jit entry is refused. -/
theorem fileStub_ensures_of {onValue : Nat → Running → Prop} {func position index : Nat}
    {kind : BlockKind} {found : StubEntries} {stubs : Block} {range : CodeRange}
    (hstubs : s.code.blocks[index]? = some stubs)
    (hrange : stubs.tables.ranges[found.interp]? = some range)
    (hoffer : (offerJitEntry func stubs found.jit).Ensures
      { s with code := s.code.withExports (s.code.lazyExports.insertIdx position
        { func, blockIndex := index, rangeIndex := found.interp, kind }) }
      (fun _ => onValue (stubs.addressOf range.start)) onFault) :
    (fileStub func kind position (index, [found])).Ensures s onValue onFault := by
  have hlooked : stubs.rangeAt found.interp = .ok range := Block.rangeAt_eq_ok hrange
  refine fileStub_ensures (fun hnot => absurd hstubs (hnot found stubs rfl)) ?_
  intro other block hother hblock
  obtain rfl : found = other := List.head_eq_of_cons_eq hother
  obtain rfl : stubs = block := Option.some.inj (hstubs.symm.trans hblock)
  refine hoffer.mono (fun _ t ht => ⟨fun other hother => ?_, fun violation hviolation => ?_⟩)
    (fun _ _ h => h)
  · obtain rfl : range = other := Except.ok.inj (hlooked.symm.trans hother)
    exact ht
  · rw [hlooked] at hviolation
    contradiction

/-- Stubs are made anew for the functions that have one for the first tier, if any has. -/
theorem upgradeStubs_ensures {onValue : Option Nat → Running → Prop}
    (hnone : (∀ lazyExport ∈ s.code.lazyExports, lazyExport.kind ≠ s.code.tier1.kind) → onValue none s)
    (hgrow : ∀ bytes, (onMemory (Memory.grow bytes)).Ensures s (fun _ => motive) onFault)
    (hrefused : ∀ t (cause : Cause), motive t → onFault (.failure { cause }) t)
    (hmake : ∀ t requests, motive t →
      upgradeRequests s.code.tier1.kind tier2 s.code.lazyExports = .ok requests →
      (createStubs compiler requests tier2).Ensures t
        (fun made u => onValue (some made.1)
          { u with code := u.code.withExports (
              repoint s.code.tier1.kind tier2.kind made.1 u.code.lazyExports made.2) }) onFault) :
    (upgradeStubs compiler tier2).Ensures s onValue onFault := by
  rw [upgradeStubs, Op.ensures_bind, ensures_current]
  dsimp only
  split
  · rename_i hany
    simp only [Bool.not_eq_true', List.any_eq_false, decide_eq_true_eq] at hany
    exact (Op.ensures_pure _).mpr (hnone hany)
  refine (hgrow _).bind (fun _ t ht => ?_) (fun _ _ h => h)
  rw [Op.ensures_bind, Op.ensures_ofAttempt]
  split
  case h_2 => exact hrefused t _ ht
  rename_i requests hrequests
  refine (hmake t requests ht hrequests).bind (fun made u hu => ?_) (fun _ _ h => h)
  rw [Op.ensures_bind, ensures_change, Op.ensures_pure]
  exact hu

end CompiledCode.Running

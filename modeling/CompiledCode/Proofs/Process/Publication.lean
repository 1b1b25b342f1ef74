import CompiledCode.Proofs.ModuleCode.MissingSlots
import CompiledCode.Proofs.Process.Reload
import CompiledCode.Proofs.Process.StubRoom

/-!
# What violated installs leave behind

An install publishes its tier before it points the dispatch tables at it, which is the only thing left
to do then. Nothing but a function without a slot can stop it there. As long as the tier and its stubs
name functions with slots alone, an install that is violated has therefore published nothing and has not
touched any slot. If they name others, which nobody checks before, then the tier is published and the
slots lead to its code ranges up to the one in question.
-/

namespace CompiledCode

/-- Whether a tier that was compiled has been published, and the dispatch tables could not be pointed at
all of it. -/
def ModuleCode.PublishesShort (before : ModuleCode) (compiler : StubCompiler) (compiled : CompiledBlock)
    (after : ModuleCode) : Prop :=
  ∃ (tier2 : Block) (made : Option StubBatch), after.tier2 = .published tier2 ∧
    tier2.tables = compiled.tables ∧
    (∀ batch ∈ made, batch.MadeBy compiler ∧ batch.tier = tier2) ∧
    before.dispatch.LedShort tier2 (made.map (·.block)).toList after.dispatch

namespace Running

variable {s : Running} {since : Memory} {placed : List Block} {others : List ModuleCode}
  {compiler : StubCompiler}

/-- The stubs that are made anew for a tier have an address other than zero. -/
theorem upgradeStubs_positive (h : s.InStep since placed others) (hroomy : s.code.Roomy)
    (tier2 : Block) :
    (upgradeStubs compiler tier2).Ensures s
      (fun result t => ∀ index ∈ result, ∃ stubs, t.code.blocks[index]? = some stubs ∧
        0 < stubs.segment.base)
      (fun _ _ => True) := by
  refine ((upgradeStubs_segment h tier2).and (upgradeStubs_room h hroomy tier2)).mono
    (fun result t ht index hindex => ?_) (fun _ _ _ => trivial)
  obtain ⟨hsegment, hroom⟩ := ht
  obtain ⟨stubs, hstubs, hin⟩ := hsegment index hindex
  have hlater : t.code.Roomy := hroom.elim (·.roomy hroomy) (·.roomy hroomy)
  exact ⟨stubs, hstubs, hlater.positive _ hin⟩

/-- Stubs that are made anew for a tier are one more batch if any; otherwise the tier is taken back, and
no slot has changed. -/
theorem upgradeStubs_undone (h : s.InStep since placed others) (hroomy : s.code.Roomy)
    (hbuilding : s.code.tier2 = .building) (tier2 : Block) :
    (Op.onFailure (upgradeStubs compiler tier2) (popBlock tier2)).Ensures s
      (fun result t => (∀ index ∈ result, ∃ stubs, t.code.blocks[index]? = some stubs ∧
          0 < stubs.segment.base) ∧
        ∃ made, result = made.map (fun _ => s.code.blocks.length) ∧
          s.code.AddsUpgrade compiler tier2 made t.code)
      (fun _ t => t.code.tier2 = .building ∧ t.code.dispatch = s.code.dispatch) := by
  refine (Op.ensures_onFailure _ _).mpr (((upgradeStubs_positive h hroomy tier2).and
    (upgradeStubs_adds.and upgradeStubs_enlarged)).mono (fun _ _ ht => ⟨ht.1, ht.2.1⟩)
    (fun fault t ht => ?_))
  obtain ⟨calls, now, hasked, hcontent⟩ := ht.2.2
  obtain rfl := hasked.eq_of_ne (by rw [hbuilding]; rintro ⟨⟩)
  have hleft : t.code.tier2 = .building ∧ t.code.dispatch = s.code.dispatch :=
    ⟨(congrArg ModuleCode.tier2 hcontent :).trans hbuilding, (congrArg ModuleCode.dispatch hcontent :)⟩
  cases fault with
  | violation violation => exact hleft
  | failure failure =>
    have hpopped {u : Running} (hu : u.code.content = t.code.content.withoutLast) :
        u.code.tier2 = .building ∧ u.code.dispatch = s.code.dispatch :=
      ⟨(congrArg ModuleCode.tier2 hu :).trans hleft.1, (congrArg ModuleCode.dispatch hu :).trans hleft.2⟩
    exact (popBlock_content tier2).mono (fun _ _ => hpopped) (fun _ _ => hpopped)

/-- An install that has begun stops before the publication, with all slots as they were, or at a function
without a slot. -/
theorem installTier_stops (h : s.InStep since placed others) (hroomy : s.code.Roomy)
    (hbuilding : s.code.tier2 = .building) (plan : PatchPlan) (compiled : CompiledBlock) :
    (installTier compiler plan compiled).Ensures s
      (fun _ _ => compiled.Slotted s.code.dispatch.size)
      (fun _ t => t.code.tier2 = .building ∧ t.code.dispatch = s.code.dispatch ∨
        s.code.PublishesShort compiler compiled t.code) := by
  have hsame {t : Running} (hcontent : t.code.content = s.code.content) :
      t.code.tier2 = .building ∧ t.code.dispatch = s.code.dispatch :=
    ⟨(congrArg ModuleCode.tier2 hcontent :).trans hbuilding, (congrArg ModuleCode.dispatch hcontent :)⟩
  refine ((buildOptimized_inStep h plan compiled).and ((buildOptimized_ensures plan compiled).and
    (buildOptimized_room h plan compiled))).bind (fun tier2 t ht => ?_)
    (fun _ t ht => .inl (hsame (congrArg ModuleCode.content ht.2.1)))
  obtain ⟨⟨ht, hcode, hserial, hlt, hbears, -⟩, ⟨-, ⟨-, htables⟩, -⟩, hroom⟩ := ht
  have hadd := (addBlock_inStep ht (hcode ▸ hserial) hlt).and
    ((addBlock_content tier2).and (frugal_addBlock tier2 t))
  refine hadd.bind (fun index u hu => ?_)
    (fun _ u hu => .inl (hsame (hu.2.1.trans (congrArg ModuleCode.content hcode))))
  obtain ⟨⟨hu, -⟩, ⟨-, hadded⟩, hsegments⟩ := hu
  have hroomy' : u.code.Roomy := (hroom.trans (.of_room hsegments)).roomy hroomy
  have hdispatch : u.code.dispatch = s.code.dispatch :=
    (congrArg ModuleCode.dispatch hadded :).trans (congrArg ModuleCode.dispatch hcode :)
  have htier2 : u.code.tier2 = .building :=
    (congrArg ModuleCode.tier2 hadded :).trans ((congrArg ModuleCode.tier2 hcode :).trans hbuilding)
  refine (upgradeStubs_undone hu hroomy' htier2 tier2).bind (fun stubIndex v hv => ?_)
    (fun _ _ hv => .inl ⟨hv.1, hv.2.trans hdispatch⟩)
  obtain ⟨hpositive, made, rfl, hadds⟩ := hv
  obtain ⟨now, -, hcontent⟩ := hadds.content
  have hslots : v.code.dispatch = s.code.dispatch :=
    (congrArg ModuleCode.dispatch hcontent :).trans hdispatch
  rw [Op.ensures_bind, ensures_change]
  -- From here on the tier is published, so that whatever stops the install is seen.
  refine ((redirect_stops (s := { v with code := v.code.withTier2 (.published tier2) }) hbears.positive
    hpositive).and (redirect_content tier2 _)).mono (fun _ w hw => ?_) (fun _ w hw => .inr ?_)
  · rw [CompiledBlock.Slotted, ← htables, ← hslots]
    exact hw.1
  · obtain ⟨hshort, dispatch, hafter⟩ := hw
    refine ⟨tier2, made, (congrArg ModuleCode.tier2 hafter :), htables, hadds.madeBy, ?_⟩
    rw [← hadds.stubBlock_eq, ← hslots]
    exact hshort

/-- An install where there is no optimized tier stops before the publication, with all slots as they were,
or at a function without a slot. -/
theorem installOptimized_stops (h : s.InStep since placed others) (hroomy : s.code.Roomy)
    (plan : PatchPlan) (compiled : CompiledBlock) :
    (installOptimized compiler plan compiled).Ensures s
      (fun _ _ => compiled.Slotted s.code.dispatch.size)
      (fun fault t => fault.isViolation = true →
        t.code.hasOptimized = s.code.hasOptimized ∧ t.code.dispatch = s.code.dispatch ∨
          s.code.PublishesShort compiler compiled t.code) := by
  refine (beginInstall_ensures compiled.kind).bind (fun _ t ht => ?_)
    (fun _ t ht _ => .inl (ht.1 ▸ ⟨rfl, rfl⟩))
  obtain ⟨-, -, habsent, rfl⟩ := ht
  have hbegun : s.SameRoom { s with code := s.code.withTier2 .building } := .of_room rfl
  refine (Op.ensures_onFailure _ _).mpr ((installTier_stops (h.withTier2 .building)
    (hbegun.roomy hroomy) rfl plan compiled).mono (fun _ _ hu => hu) (fun fault u hu => ?_))
  cases fault with
  | failure failure => exact (ensures_change _).mpr nofun
  | violation violation =>
    refine fun _ => hu.imp_left fun hleft => ⟨?_, hleft.2⟩
    rw [ModuleCode.hasOptimized, ModuleCode.hasOptimized, hleft.1, habsent]
    rfl

end Running

namespace Process

variable {s : Running} {placed : List Block} {others : List ModuleCode}

/-- If an install is violated where there is no optimized tier yet, then there is none afterwards and all
slots are what they were; or else the tier has been published, and the slots lead to its code ranges up to
one for a function without a slot. As long as the tier and the stubs that the compiler makes name functions
with slots alone, it is always the former. A tier that names other functions is never installed. -/
theorem violated_installs_stop_at_missing_slots (compiler : StubCompiler) (plan : PatchPlan)
    (compiled : CompiledBlock)
    (hreach : Reachable { engine := s.engine, placed, codes := s.code :: others })
    (hnone : s.code.hasOptimized = false) :
    (∀ violation t,
      Running.installOptimized compiler plan compiled s = .error (.violation violation) t →
        t.code.hasOptimized = false ∧ t.code.dispatch = s.code.dispatch ∨
          s.code.PublishesShort compiler compiled t.code) ∧
    (compiled.Slotted s.code.dispatch.size → compiler.Slotted s.code.dispatch.size →
      ∀ violation t,
        Running.installOptimized compiler plan compiled s = .error (.violation violation) t →
          t.code.hasOptimized = false ∧ t.code.dispatch = s.code.dispatch) ∧
    (∀ t, Running.installOptimized compiler plan compiled s = .ok () t →
      compiled.Slotted s.code.dispatch.size) := by
  have hs : s.InStep s.engine.memory placed others := hreach.inStep
  have hroomy : s.code.Roomy := hreach.roomy s.code List.mem_cons_self
  have hstops : (Running.installOptimized compiler plan compiled).Ensures s _ _ :=
    Running.installOptimized_stops hs hroomy plan compiled
  rw [hnone] at hstops
  refine ⟨fun violation t hend => hstops.of_error hend rfl,
    fun hcompiled hcompiler violation t hend => ?_, fun t hend => hstops.of_ok hend⟩
  refine (hstops.of_error hend rfl).resolve_right ?_
  rintro ⟨tier2, made, -, htables, hmade, hshort⟩
  exact hshort.not_slotted htables (fun batch hbatch => (hmade batch hbatch).1) hcompiled hcompiler

end Process

/-- An optimized tier with a function that the module with one function does not have. -/
def CompiledBlock.strayFunction : CompiledBlock where
  kind := .optimizedTier
  code := [0x90, 0xc3, 0xc3]
  tables :=
    { CompiledBlock.oneFunction.tables with
      ranges :=
        [{ kind := .function, func := some 0, start := 0, stop := 2, tierEntry := 1 },
          { kind := .function, func := some 7, start := 2, stop := 3, tierEntry := 2 }] }

/-- An optimized tier whose code ranges are out of order. -/
def CompiledBlock.outOfOrder : CompiledBlock where
  kind := .optimizedTier
  code := [0x90, 0xc3, 0xc3]
  tables :=
    { CompiledBlock.oneFunction.tables with
      ranges :=
        [{ kind := .function, func := some 0, start := 2, stop := 3, tierEntry := 2 },
          { kind := .function, func := some 0, start := 0, stop := 2, tierEntry := 1 }] }

/-- A module with one function that goes through both tiers is loaded; installing a tier with another
function is violated once the tier has been published and the slot of the one function has changed, and
installing a tier that is out of order is violated before. -/
theorem load_oneTiering_violated :
    ∃ code engine violation violation' t u,
      ModuleCode.load { mode := .tiering } .empty Image.oneTiering.toBytes {} = .ok code engine ∧
      code.tier1.kind = .baselineTier ∧ code.hasOptimized = false ∧ code.dispatch.size = 1 ∧
      Running.installOptimized .failing {} .strayFunction { engine, code } =
        .error (.violation violation) t ∧
      t.code.hasOptimized = true ∧ t.code.dispatch.tiering ≠ code.dispatch.tiering ∧
      Running.installOptimized .failing {} .outOfOrder { engine, code } =
        .error (.violation violation') u := by
  have hends : (ModuleCode.load { mode := .tiering } .empty Image.oneTiering.toBytes).succeeds {}
      (fun code engine =>
        code.tier1.kind = .baselineTier && !code.hasOptimized && code.dispatch.size = 1 &&
        (Running.installOptimized .failing {} .strayFunction).isViolated { engine, code } (fun t =>
          t.code.hasOptimized && t.code.dispatch.tiering ≠ code.dispatch.tiering) &&
        (Running.installOptimized .failing {} .outOfOrder).isViolated { engine, code }
          (fun _ => true)) = true := by
    decide +kernel
  obtain ⟨code, engine, hload, htest⟩ := Op.exists_of_succeeds hends
  simp only [Bool.and_eq_true, decide_eq_true_eq, Bool.not_eq_true'] at htest
  obtain ⟨⟨⟨⟨hkind, hnone⟩, hsize⟩, hstray⟩, horder⟩ := htest
  obtain ⟨violation, t, hstray, ht⟩ := Op.exists_of_isViolated hstray
  obtain ⟨violation', u, horder, -⟩ := Op.exists_of_isViolated horder
  rw [Bool.and_eq_true, decide_eq_true_eq] at ht
  exact ⟨code, engine, violation, violation', t, u, hload, hkind, hnone, hsize, hstray, ht.1, ht.2, horder⟩

namespace Process

/-- An install in a module with one function is violated and yet publishes its tier, and has changed the
slot of the function by then. -/
theorem violated_install_publishes :
    ∃ (s t : Running) (violation : Violation),
      Reachable { engine := s.engine, placed := [], codes := [s.code] } ∧
      s.code.tier1.kind = .baselineTier ∧ s.code.hasOptimized = false ∧
      Running.installOptimized .failing {} .strayFunction s = .error (.violation violation) t ∧
      t.code.hasOptimized = true ∧ t.code.dispatch.tiering ≠ s.code.dispatch.tiering := by
  obtain ⟨code, engine, violation, -, t, -, hload, hkind, hnone, -, hstray, hpublished, hslots, -⟩ :=
    load_oneTiering_violated
  exact ⟨_, t, violation, reachable_start.step (.load hload), hkind, hnone, hstray, hpublished, hslots⟩

/-- Of a module with one function, an install that names another one publishes its tier before it stops,
and an install that is out of order publishes nothing. -/
theorem violated_installs_stop_at_missing_slots_once_loaded :
    ∃ (s t u : Running) (violation violation' : Violation),
      Reachable { engine := s.engine, placed := [], codes := [s.code] } ∧
      s.code.hasOptimized = false ∧
      Running.installOptimized .failing {} .strayFunction s = .error (.violation violation) t ∧
      s.code.PublishesShort .failing .strayFunction t.code ∧
      CompiledBlock.outOfOrder.Slotted s.code.dispatch.size ∧
      StubCompiler.failing.Slotted s.code.dispatch.size ∧
      Running.installOptimized .failing {} .outOfOrder s = .error (.violation violation') u ∧
      u.code.hasOptimized = false ∧ u.code.dispatch = s.code.dispatch := by
  obtain ⟨code, engine, violation, violation', t, u, hload, -, hnone, hsize, hstray, hpublished, -,
    horder⟩ := load_oneTiering_violated
  have hloaded := reachable_start.step (.load hload)
  have hstops (compiled : CompiledBlock) :=
    violated_installs_stop_at_missing_slots (s := { engine, code }) .failing {} compiled hloaded hnone
  have hshort := ((hstops .strayFunction).1 violation t hstray).resolve_left fun hleft => by
    rw [hleft.1] at hpublished
    contradiction
  have hcompiled : CompiledBlock.outOfOrder.Slotted code.dispatch.size := by
    rw [hsize]
    unfold CompiledBlock.Slotted
    decide
  have hcompiler : StubCompiler.failing.Slotted code.dispatch.size := fun _ _ _ hmade => nomatch hmade
  exact ⟨_, t, u, violation, violation', hloaded, hnone, hstray, hshort, hcompiled, hcompiler, horder,
    (hstops .outOfOrder).2.1 hcompiled hcompiler violation' u horder⟩

end Process

end CompiledCode

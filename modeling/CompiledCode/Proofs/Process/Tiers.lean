import CompiledCode.Proofs.ModuleCode.Batches
import CompiledCode.Proofs.Process.Saved

/-!
# What comes with a tier of a module

The first tier of a module comes with the module, and the optimized tier with its install. Either has
the code ranges of all functions that it covers by then, and calls are led to its function bodies in
the dispatch tables. Where that was the case once, it stays on record whatever the slots of the tables
are filled with later. There is a slot for every function all the time.
-/

namespace CompiledCode

/-- A block covers the same functions when it is bound. -/
theorem Block.Covers.rebound {block other : Block} {compiled : CompiledBlock}
    (h : block.Covers compiled) (hsame : block.Rebound other) : other.Covers compiled := by
  obtain ⟨owner, serial, rfl⟩ := hsame
  exact ⟨h.coverage, h.full⟩

/-- A block that covers what was compiled covers what is saved of it. -/
theorem Block.Covers.erased {block : Block} {compiled : CompiledBlock} (h : block.Covers compiled)
    (plan : PatchPlan) : block.Covers (compiled.erased plan) :=
  ⟨h.coverage, h.full⟩

namespace Running

/-- What happens to the code of a module unless a tier is published: an entry is asked for, an install
fails, some part of the runtime fills a slot of the dispatch tables, or labels are made. -/
inductive Served (s : Running) : Running → Prop where
  | entry {t : Running} {compiler : StubCompiler} {func : Nat}
      {result : Except Fault (FuncExport × Nat)}
      (hasks : s.code.hasOptimized = true ∨ ∀ block, compiler.asksForInstall block = false)
      (hend : (interpEntry compiler func).ending s = (result, t))
      (hcalm : ∀ violation, result ≠ .error (.violation violation)) : Served s t
  | installFails {t : Running} {compiler : StubCompiler} {plan : PatchPlan}
      {compiled : CompiledBlock} {failure : Failure}
      (hend : installOptimized compiler plan compiled s = .error (.failure failure) t) : Served s t
  | fill {tables : DispatchTables} (hfilled : s.code.dispatch.Filled tables) :
    Served s { s with code := s.code.withDispatch tables }
  | label {wanted : Bool} : Served s { s with code := s.code.ensureLabels wanted }

variable {s t : Running}

/-- Unless a tier is published, there is none afterwards that was not there before, and there are the
same slots for functions. -/
theorem Served.same (h : Served s t) :
    t.code.tier2.block? = s.code.tier2.block? ∧ s.code.dispatch.SameSlots t.code.dispatch := by
  have hmarked : ∀ {compiler : StubCompiler}, s.code.Marked compiler t.code →
      t.code.tier2.block? = s.code.tier2.block? ∧ s.code.dispatch.SameSlots t.code.dispatch := by
    rintro compiler ⟨calls, tier2, hasked, hcontent⟩
    have hdispatch : t.code.dispatch = s.code.dispatch := (congrArg ModuleCode.dispatch hcontent :)
    rw [hdispatch, show t.code.tier2 = tier2 from (congrArg ModuleCode.tier2 hcontent :)]
    exact ⟨hasked.block?, rfl, rfl, rfl⟩
  cases h with
  | @entry _ compiler func result hasks hend hcalm =>
    have hafter := (interpEntry_enlarged func).ending hend
    cases result with
    | ok found =>
      obtain ⟨calls, tier2, more, lazyExports, dispatch, hasked, hcontent⟩ := hafter
      rw [show t.code.tier2 = tier2 from (congrArg ModuleCode.tier2 hcontent :)]
      exact ⟨hasked.block?, (interpEntry_sameSlots func).ending hend⟩
    | error fault =>
      cases fault with
      | violation violation => exact absurd rfl (hcalm violation)
      | failure failure => exact hmarked (hafter rfl)
  | @installFails _ compiler plan compiled failure hend =>
    obtain ⟨-, rfl⟩ | ⟨-, calls, hcontent⟩ :=
      (installOptimized_enlarged plan compiled).of_error hend rfl
    · exact ⟨rfl, rfl, rfl, rfl⟩
    · have hcalls : s.code.Marked compiler t.code := ⟨calls, s.code.tier2, .inl rfl, hcontent⟩
      exact hmarked hcalls
  | fill hfilled => exact ⟨rfl, hfilled.sameSlots⟩
  | label =>
    obtain ⟨labels, hlabels⟩ := ModuleCode.exists_ensureLabels_eq s.code _
    rw [hlabels]
    exact ⟨rfl, rfl, rfl, rfl⟩

end Running

namespace Process

variable {source : Source} {p q : Process} {code code' : ModuleCode} {block : Block}
  {tables : DispatchTables} {tier : Tier} {installs : List (Block × DispatchTables)}

/-- A block that was placed has the code ranges of what was compiled. -/
theorem Placed.coverage {compiled : CompiledBlock} {plan : PatchPlan}
    (h : Placed compiled plan p block) :
    block.coverage = Coverage.ofTables compiled.kind compiled.tables := by
  induction h with
  | place hreach hend => exact ((ModuleCode.place_inStep hreach.inStep ..).of_ok hend).2.2.1.coverage
  | step _ _ _ ih => exact ih

/-- Whether the blocks of a module have the code ranges of the functions that their sources cover. -/
structure Covered (source : Source) (code : ModuleCode) : Prop where
  sharedStubs : code.sharedStubs.Covers source.sharedStubs
  tier1 : code.tier1.Covers source.tier1
  optimized : ∀ tier2, code.tier2.block? = some tier2 →
    source.optimized.kind = .optimizedTier ∧ tier2.Covers source.optimized

/-- The code ranges stay as they are as long as the blocks do. -/
theorem Covered.becomes (h : Covered source code) (hbecomes : code.Becomes code')
    (htier2 : code'.tier2.block? = code.tier2.block?) : Covered source code' where
  sharedStubs := hbecomes.sharedStubs ▸ h.sharedStubs
  tier1 := hbecomes.tier1 ▸ h.tier1
  optimized := htier2 ▸ h.optimized

/-- At any time, the blocks of a module have the code ranges of all functions that they cover. -/
theorem Built.covered (h : Built source p code) : Covered source code := by
  induction h with
  | @create engine after parts placed codes symbols code hshared htier1 himports hmodule hfuncs hend =>
    have hcreated := (ModuleCode.create_content ..).of_ok hend
    obtain ⟨-, hbound, hbound'⟩ := hcreated.blocks
    have hcovers : parts.sharedStubs.Covers source.sharedStubs :=
      ⟨hshared.coverage, hcreated.sharedStubs.full⟩
    have hcovers' : parts.tier1.Covers source.tier1 := ⟨htier1.coverage, hcreated.tier1.full⟩
    refine ⟨hcovers.rebound hbound, hcovers'.rebound hbound', fun tier2 htier2 => ?_⟩
    rw [((ModuleCode.create_ensures ..).of_ok hend).1] at htier2
    contradiction
  | install hbuilt hend ih =>
    obtain ⟨hkind, tier2, hpublished, -, hcovers, -⟩ :=
      (Running.installOptimized_ledTo _ _).of_ok hend
    obtain ⟨_, calls, more, lazyExports, dispatch, hcontent⟩ :=
      (Running.installOptimized_enlarged _ _).of_ok hend
    have hbecomes := ModuleCode.Becomes.of_content hcontent
    refine ⟨hbecomes.sharedStubs ▸ ih.sharedStubs, hbecomes.tier1 ▸ ih.tier1, fun other hother => ?_⟩
    rw [hpublished] at hother
    obtain rfl := Option.some.inj hother
    exact ⟨hkind, hcovers⟩
  | own _ hstep hp hq htier2 ih => exact ih.becomes (hstep.becomes hp hq) htier2
  | other _ _ _ ih => exact ih

/-- A tier that is available covers the functions that were compiled for it. -/
theorem Covered.of_tierBlock (h : Covered source code) (hkind : code.tier1.kind = source.tier1.kind)
    (htier : code.hasTier tier = .ok true) (hblock : code.tierBlock tier = .ok block) :
    block.Covers (source.tier tier) := by
  obtain ⟨hfirst, hsame⟩ | ⟨hsecond, tier2, htier2, hsame⟩ := ModuleCode.exists_tierBlock_eq_ok htier
  · obtain rfl := Except.ok.inj (hblock.symm.trans hsame)
    rw [Source.tier, if_pos (hkind ▸ hfirst)]
    exact h.tier1
  · obtain rfl := Except.ok.inj (hblock.symm.trans hsame)
    rw [Source.tier, if_neg (hkind ▸ hsecond)]
    exact (h.optimized _ htier2).2

/-- The tiers of a module are blocks of it, and of a kind that holds a tier. -/
theorem Built.tiers_subset (h : Built source p code) :
    code.tiers ⊆ code.blocks ∧ ∀ tier ∈ code.tiers, tier.kind.tier?.isSome = true := by
  obtain ⟨-, -, hdescribes⟩ := h.describes
  refine ⟨fun tier htier => ?_, fun tier htier => ?_⟩
  · rcases ModuleCode.mem_tiers.mp htier with rfl | htier2
    · exact hdescribes.owned.2.1
    · exact hdescribes.owned.2.2 tier htier2
  · rcases ModuleCode.mem_tiers.mp htier with rfl | htier2
    · rw [hdescribes.tier1.kind]
      exact hdescribes.tierKind
    · rw [(hdescribes.optimized tier htier2).kind, (h.covered.optimized tier htier2).1]
      rfl

/-- The shared stubs are no tier. -/
theorem Built.sharedStubs_not_mem_tiers (h : Built source p code)
    (hkind : source.sharedStubs.kind = .sharedStubs) : code.sharedStubs ∉ code.tiers := by
  intro hin
  have htier := h.tiers_subset.2 _ hin
  rw [h.describes.2.2.sharedStubs.kind, hkind] at htier
  contradiction

/-- Whatever happens to a module happens to the process. -/
theorem Step.of_served {s t : Running} (h : s.Served t) (placed : List Block)
    (codes : List ModuleCode) :
    Step { engine := s.engine, placed, codes := s.code :: codes }
      { engine := t.engine, placed, codes := t.code :: codes } := by
  cases h with
  | entry hasks hend hcalm => exact .entry hasks hend hcalm
  | installFails hend => exact .install (Op.ending_of_error hend) (by rintro _ ⟨⟩)
  | fill hfilled => exact .dispatch
  | label => exact .label

/-- The life of a module that is made from a source, with the blocks that became tiers of it, the last
one first, and the dispatch tables as they were then. -/
inductive Traced (source : Source) :
    Process → ModuleCode → List (Block × DispatchTables) → Prop where
  /-- The module is created with its first tier. -/
  | create {engine after : Engine} {parts : ModuleParts} {placed : List Block}
      {codes : List ModuleCode} {symbols : SymbolTable} {code : ModuleCode}
      (hbuilt : Built source { engine := after, placed, codes := code :: codes } code)
      (hend : ModuleCode.create source.settings symbols parts engine = .ok code after) :
    Traced source { engine := after, placed, codes := code :: codes } code
      [(code.tier1, code.dispatch)]
  /-- The optimized tier is installed. -/
  | install {engine : Engine} {placed : List Block} {codes : List ModuleCode} {code : ModuleCode}
      {installs : List (Block × DispatchTables)} {compiler : StubCompiler} {t : Running}
      {tier2 : Block}
      (htraced : Traced source { engine, placed, codes := code :: codes } code installs)
      (hend : Running.installOptimized compiler source.optimizedPlan source.optimized
        { engine, code } = .ok () t)
      (htier2 : t.code.tier2.block? = some tier2) :
    Traced source { engine := t.engine, placed, codes := t.code :: codes } t.code
      ((tier2, t.code.dispatch) :: installs)
  /-- The module goes on. -/
  | own {s t : Running} {placed : List Block} {codes : List ModuleCode}
      {installs : List (Block × DispatchTables)}
      (htraced : Traced source { engine := s.engine, placed, codes := s.code :: codes } s.code installs)
      (hserved : s.Served t) :
    Traced source { engine := t.engine, placed, codes := t.code :: codes } t.code installs
  /-- Something else happens in the process. -/
  | other {p q : Process} {code : ModuleCode} {installs : List (Block × DispatchTables)}
      (htraced : Traced source p code installs) (hstep : Step p q) (hin : code ∈ q.codes) :
    Traced source q code installs

/-- A module is made from its source all its life. -/
theorem Traced.built (h : Traced source p code installs) : Built source p code := by
  induction h with
  | create hbuilt hend => exact hbuilt
  | install _ hend _ ih => exact .install ih hend
  | own _ hserved ih => exact .own ih (.of_served hserved _ _) rfl rfl hserved.same.1
  | other _ hstep hin ih => exact .other ih hstep hin

/-- Module code that is loaded is created from some parts. -/
theorem exists_createdFrom_of_load {settings : Settings} {symbols : SymbolTable} {bytes : Bytes}
    {engine after : Engine} (hend : ModuleCode.load settings symbols bytes engine = .ok code after) :
    ∃ parts, ModuleCode.CreatedFrom settings symbols parts code := by
  obtain ⟨_, _, _, _, last, -, -, -, hcreate⟩ := ModuleCode.load_eq_ok hend
  exact ⟨_, (ModuleCode.create_content ..).of_ok hcreate⟩

/-- The life of a module can begin with its image. -/
theorem Reachable.traced_of_load (h : Reachable p) (image : Image) {host : Settings}
    {symbols : SymbolTable} {after : Engine} (optimized : CompiledBlock) (optimizedPlan : PatchPlan)
    (hend : ModuleCode.load host symbols image.toBytes p.engine = .ok code after) :
    Traced { image.source optimized optimizedPlan with settings := host }
      { p with engine := after, codes := code :: p.codes } code [(code.tier1, code.dispatch)] := by
  obtain ⟨_, _, _, _, last, -, -, -, hcreate⟩ := ModuleCode.load_eq_ok hend
  exact .create (h.built_of_load_in image optimized optimizedPlan hend) hcreate

/-- In tiering mode there is a tiering slot for every function all the time. -/
theorem Traced.slots (h : Traced source p code installs) :
    code.dispatch.mode = source.settings.mode ∧ code.dispatch.Complete := by
  induction h with
  | create hbuilt hend =>
    have hfilled := ((ModuleCode.create_content ..).of_ok hend).ofBlocks_eq
    obtain ⟨hmode, hcomplete, -⟩ := DispatchTables.tiering_of_ofBlocks hfilled
    exact ⟨hmode, hcomplete⟩
  | install _ hend _ ih =>
    obtain ⟨-, tier2, -, -, -, hled⟩ := (Running.installOptimized_ledTo _ _).of_ok hend
    exact ⟨hled.mode.trans ih.1, hled.complete ih.2⟩
  | own _ hserved ih =>
    have hslots := hserved.same.2
    exact ⟨hslots.mode.trans ih.1, hslots.complete ih.2⟩
  | other _ _ _ ih => exact ih

/-- In tiering mode, calls led to the function bodies of a block once it became a tier. -/
theorem Traced.tiering_eq (h : Traced source p code installs)
    (hmode : source.settings.mode = .tiering) (hin : (block, tables) ∈ installs) {func : Nat}
    {body : CodeRange} (hbody : DispatchTables.bodyOf? block.tables.ranges func = some body) :
    tables.tiering[func]? = some (block.addressOf body.tierEntry) := by
  induction h with
  | create hbuilt hend =>
    obtain ⟨rfl, rfl⟩ := Prod.mk.inj (List.mem_singleton.mp hin)
    have hfilled := ((ModuleCode.create_content ..).of_ok hend).ofBlocks_eq
    exact (DispatchTables.tiering_of_ofBlocks hfilled).2.2 hmode func body hbody
  | install htraced hend htier2 ih =>
    rcases List.mem_cons.mp hin with hnew | hbefore
    · obtain ⟨rfl, rfl⟩ := Prod.mk.inj hnew
      obtain ⟨-, other, hpublished, -, -, hled⟩ := (Running.installOptimized_ledTo _ _).of_ok hend
      rw [hpublished] at htier2
      obtain rfl := Option.some.inj htier2
      exact hled.tiering_eq (htraced.slots.1.trans hmode) htraced.slots.2 hbody
    · exact ih hbefore
  | own _ _ ih => exact ih hin
  | other _ _ _ ih => exact ih hin

/-- A tier that is available was installed some time. -/
theorem Traced.exists_install (h : Traced source p code installs) (hblock : block ∈ code.tiers) :
    ∃ tables, (block, tables) ∈ installs := by
  induction h with
  | create hbuilt hend =>
    rw [ModuleCode.mem_tiers, ((ModuleCode.create_ensures ..).of_ok hend).1] at hblock
    obtain rfl := hblock.resolve_right nofun
    exact ⟨_, List.mem_singleton_self _⟩
  | @install engine placed codes code installs compiler t tier2 htraced hend htier2 ih =>
    rcases ModuleCode.mem_tiers.mp hblock with rfl | hoptimized
    · -- The first tier has been on record since the module was created.
      have hstep : Step { engine, placed, codes := code :: codes }
          { engine := t.engine, placed, codes := t.code :: codes } := .of_install hend
      obtain ⟨tables, hrecorded⟩ := ih (ModuleCode.mem_tiers.mpr (.inl (hstep.becomes rfl rfl).tier1))
      exact ⟨tables, List.mem_cons_of_mem _ hrecorded⟩
    · obtain rfl := Option.some.inj (htier2.symm.trans hoptimized)
      exact ⟨_, List.mem_cons_self⟩
  | @own s t placed codes installs htraced hserved ih =>
    have htier1 : t.code.tier1 = s.code.tier1 :=
      ((Step.of_served hserved placed codes).becomes rfl rfl).tier1
    rw [ModuleCode.mem_tiers, hserved.same.1, htier1, ← ModuleCode.mem_tiers] at hblock
    exact ih hblock
  | other _ _ _ ih => exact ih hblock

end Process

end CompiledCode

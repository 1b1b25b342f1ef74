import CompiledCode.Image.Store
import CompiledCode.Proofs.Image.Check
import CompiledCode.Proofs.ModuleCode.Create
import CompiledCode.Proofs.Process.Install

/-!
# Every call leaves the process in step

The code of a module is created or loaded with blocks that lie apart from all others, and goes
away again if one of them cannot be added. An interpreter entry that is asked for adds a block
of stubs or nothing.
-/

namespace CompiledCode

namespace Running

variable {s : Running} {since : Memory} {placed : List Block} {others : List ModuleCode} {compiler : StubCompiler}

/-- The interpreter entry of a function is found or made in step. -/
theorem interpEntry_inStep (h : s.InStep since placed others) (func : Nat) :
    (interpEntry compiler func).Ensures s (fun _ t => t.InStep since placed others)
      (fun fault t => fault.ofMap = false ∧ t.InStep since placed others) :=
  interpEntry_ensures h (fun _ hviolation => ⟨hviolation, h⟩)
    fun _ _ _ => (createStub_inStep h _ _).during_of fun _ _ hfault => hfault

/-- The first blocks of a module are added in step, or there is no room for one of them. -/
theorem addFirstBlocks_inStep {sharedStubs tier1 : Block}
    (h : s.InStep since (sharedStubs :: tier1 :: placed) others)
    (hserial : ∀ other ∈ s.code.blocks ++ others.flatMap (·.blocks), other.serial < sharedStubs.serial)
    (hlt : sharedStubs.serial < tier1.serial) (hfresh : tier1.serial < s.engine.nextSerial) :
    (addFirstBlocks sharedStubs tier1).Ensures s (fun _ t => t.InStep since placed others)
      (fun fault t => fault.isViolation = false ∧ t.InStep since placed others) := by
  refine (addBlock_inStep h ?_ ?_).bind (fun _ t ht => ?_) (fun _ t ht => ?_)
  · exact fun other hin => Nat.ne_of_lt (hserial other hin)
  · exact Nat.lt_trans hlt hfresh
  · obtain ⟨ht, hblocks, hnext⟩ := ht
    refine (addBlock_inStep ht ?_ ?_).bind (fun _ u hu => ?_) (fun _ u hu => ?_)
    · intro other hin
      rw [hblocks] at hin
      rcases List.mem_append.mp hin with hown | hother
      · rcases List.mem_append.mp hown with hbefore | hlast
        · exact Nat.ne_of_lt (Nat.lt_trans (hserial other (List.mem_append_left _ hbefore)) hlt)
        · obtain rfl := List.mem_singleton.mp hlast
          exact Nat.ne_of_lt hlt
      · exact Nat.ne_of_lt (Nat.lt_trans (hserial other (List.mem_append_right _ hother)) hlt)
    · exact hnext ▸ hfresh
    · exact (Op.ensures_pure _).mpr hu.1
    · exact ⟨hu.1, hu.2.1.discard⟩
  · exact ⟨ht.1, ht.2.1.discard.discard⟩

end Running

namespace ModuleCode

variable {engine : Engine} {since : Memory} {placed : List Block} {codes : List ModuleCode}

/-- Getting room for the dispatch tables claims nothing, and fails if at all. -/
theorem growDispatchTables_claims {memory : Memory} (mode : CompileMode) (parts : ModuleParts) :
    (growDispatchTables mode parts).Ensures memory (fun _ after => after.claims = memory.claims)
      (fun fault after => fault.isViolation = false ∧ after.claims = memory.claims) := by
  rw [growDispatchTables]
  dsimp only
  split
  · refine (Memory.grow_claims _).bind (fun _ middle hmiddle => ?_) (fun _ _ h => h)
    exact (Memory.grow_claims _).mono (fun _ after hafter => hafter.trans hmiddle)
      (fun _ after hfault => ⟨hfault.1, hfault.2.trans hmiddle⟩)
  · exact Memory.grow_claims _

/-- The blocks of new module code are added in step, or there is no room and nothing is left of it. -/
theorem started_inStep {code : ModuleCode} {sharedStubs tier1 : Block}
    (h : Process.InStep since { engine, placed := sharedStubs :: tier1 :: placed, codes })
    (hblocks : code.blocks = []) (hsegments : code.lazySegments = []) (hmap : code.blockMap = {})
    (hserial : ∀ other ∈ codes.flatMap (·.blocks), other.serial < sharedStubs.serial)
    (hlt : sharedStubs.serial < tier1.serial) (hfresh : tier1.serial < engine.nextSerial)
    (profiling : Bool) :
    (started code do
      Op.onFailure (Running.addFirstBlocks sharedStubs tier1) Running.retire
      Running.change (·.ensureLabels profiling)).Ensures engine
      (fun code e => Process.InStep since { engine := e, placed, codes := code :: codes })
      (fun fault e => fault.isViolation = false ∧
        Process.InStep since { engine := e, placed, codes }) := by
  have hjoined : Running.InStep { engine, code } since (sharedStubs :: tier1 :: placed) codes :=
    h.join hblocks hsegments (hmap ▸ RegionMap.settled_empty)
  suffices hadded : (do
      Op.onFailure (Running.addFirstBlocks sharedStubs tier1) Running.retire
      Running.change (·.ensureLabels profiling) : Op Running Unit).Ensures { engine, code }
      (fun _ t => t.InStep since placed codes)
      (fun fault t => fault.isViolation = false ∧
        Process.InStep since { engine := t.engine, placed, codes }) from
    (started_ensures hadded).mono (fun _ _ ht => ht) (fun _ _ ⟨_, ht⟩ => ht)
  refine Op.Ensures.bind ((Op.ensures_onFailure _ _).mpr (Op.Ensures.mono
    (Running.addFirstBlocks_inStep hjoined ?_ hlt hfresh) (fun _ _ ht => ht) (fun fault t ht => ?_)))
    (fun _ t ht => ?_) (fun _ _ ht => ht)
  · rw [hblocks]
    exact hserial
  · obtain ⟨hfailed, ht⟩ := ht
    cases fault with
    | violation violation => contradiction
    | failure failure =>
      exact (Running.retire_inStep ht).mono (fun _ _ hu => ⟨rfl, hu⟩) (fun _ _ hu => hu.elim)
  · rw [Running.ensures_change]
    obtain ⟨labels, hlabels⟩ := exists_ensureLabels_eq t.code profiling
    rw [hlabels]
    exact ht.congr ⟨rfl, rfl, rfl, rfl⟩

/-- New module code joins the others in step, or nothing is left of it; that is a failure if its parts
fit. -/
theorem create_inStep {parts : ModuleParts} (settings : Settings) (symbols : SymbolTable)
    (h : Process.InStep since { engine, placed := parts.sharedStubs :: parts.tier1 :: placed, codes }) :
    (create settings symbols parts).Ensures engine
      (fun code e => Process.InStep since { engine := e, placed, codes := code :: codes })
      (fun fault e => fault.ofMap = false ∧
        (parts.Fit settings.mode → fault.isViolation = false) ∧
        Process.InStep since { engine := e, placed, codes }) := by
  have hgone : ∀ {e : Engine} {shared tier1 : Block},
      Process.InStep since { engine := e, placed := shared :: tier1 :: placed, codes } →
      Process.InStep since { engine := e, placed, codes } := fun he => he.discard.discard
  rw [create, Op.ensures_bind, Op.ensures_require]
  split
  case isFalse hkind => exact ⟨rfl, fun hfit => absurd (decide_eq_true hfit.sharedKind) hkind, hgone h⟩
  rw [Op.ensures_bind, Op.ensures_require]
  split
  case isFalse hkind => exact ⟨rfl, fun hfit => absurd hfit.tierKind hkind, hgone h⟩
  have hgrown : (Engine.onMemory (growDispatchTables settings.mode parts)).Ensures engine
      (fun _ e => ∃ memory, e = { engine with memory } ∧ engine.memory.Keeps memory)
      (fun fault e => fault.isViolation = false ∧ Process.InStep since { engine := e, placed, codes }) :=
    (Op.ensures_focus _ _ _).mpr ((growDispatchTables_claims _ _).mono
      (fun _ memory hmemory => ⟨memory, rfl, h.sound.keeps hmemory⟩)
      (fun _ memory hfault => ⟨hfault.1, hgone (h.withMemory (h.sound.keeps hfault.2))⟩))
  have hfails : ∀ {fault : Fault} {e : Engine},
      fault.isViolation = false ∧ Process.InStep since { engine := e, placed, codes } →
      fault.ofMap = false ∧ (parts.Fit settings.mode → fault.isViolation = false) ∧
        Process.InStep since { engine := e, placed, codes } :=
    fun hfault => ⟨Fault.ofMap_of_not_isViolation hfault.1, fun _ => hfault.1, hfault.2⟩
  refine (hgrown.during_of fun _ _ hfault => hfault).bind (fun _ e he => ?_)
    (fun _ _ hfault => hfails hfault)
  obtain ⟨memory, rfl, hkeeps⟩ := he
  have hroom := h.withMemory hkeeps
  rw [Op.ensures_bind, Op.ensures_ofExcept]
  split
  case h_2 fault hfault =>
    refine ⟨DispatchTables.ofMap_of_ofBlocks hfault, fun hfit => ?_, hgone hroom⟩
    obtain ⟨tables, htables⟩ := hfit.dispatch
    rw [hfault] at htables
    contradiction
  rw [Op.ensures_bind, Op.ensures_get, Op.ensures_bind, Op.ensures_modify]
  have hnumbered := hroom.withOwners engine.owners (engine.nextOwner + 1)
  refine (Engine.bindBlock_inStep hnumbered _).bind (fun sharedStubs e he => ?_)
    (fun fault e hfault => ⟨hfault.1, fun hfit => absurd hfit.sharedStubs hfault.2.1,
      hfault.2.2 ▸ hgone hnumbered⟩)
  obtain ⟨he, hserial, hnext, -⟩ := he
  have hbefore : ∀ other ∈ codes.flatMap (·.blocks), other.serial < sharedStubs.serial :=
    fun other hin => hserial ▸ hnumbered.fresh other hin
  have hswapped := he.perm (List.Perm.swap ..) (List.Perm.refl _)
  refine (Engine.bindBlock_inStep hswapped _).bind (fun tier1 e' he' => ?_)
    (fun fault e' hfault => ⟨hfault.1, fun hfit => absurd hfit.tier1 hfault.2.1,
      hfault.2.2 ▸ hgone he⟩)
  obtain ⟨he', hserial', hnext', -⟩ := he'
  have hbound := he'.perm (List.Perm.swap ..) (List.Perm.refl _)
  rw [Op.ensures_bind, Op.ensures_modify]
  refine (started_inStep (hbound.withOwners _ _) rfl rfl rfl hbefore ?_ ?_ _).mono (fun _ _ h => h)
    (fun _ _ hfault => hfails hfault)
  · omega
  · exact Nat.lt_of_lt_of_eq (Nat.lt_succ_self _) hnext'.symm

/-- A block is placed apart from all others, or what is placed stays as it was. -/
theorem place_inStep (h : Process.InStep since { engine, placed, codes }) (compiled : CompiledBlock)
    (plan : PatchPlan) (symbols : SymbolTable) (shared : Option Block) :
    (Engine.onMemory (Block.place compiled plan symbols shared)).Ensures engine
      (fun block e => Process.InStep since { engine := e, placed := block :: placed, codes } ∧
        e.memory.Bears block compiled plan ∧ block.MadeOf compiled ∧
        e.memory.Shows block (.ofBlock compiled plan symbols shared))
      (fun fault e => fault.ofMap = false ∧
        (∀ funcCount, compiled.Checked funcCount → fault.isViolation = false) ∧
        Process.InStep since { engine := e, placed, codes }) :=
  (Op.ensures_focus _ _ _).mpr
    (((Block.place_hosts h.sound ..).and (Block.place_ensures ..)).mono
      (fun _ _ ⟨hblock, hmade⟩ => ⟨h.place hblock.1 hblock.2.1 hblock.2.2.1, hblock.2.2.2.1, hmade,
        hblock.2.2.2.2⟩)
      (fun _ _ ⟨hfault, _⟩ => ⟨hfault.1, fun _ hchecked => hfault.2.1 hchecked.inOrder
        (CodeTables.rangesInside_of_boundsFault? hchecked.inBounds), h.withMemory hfault.2.2⟩))

/-- Module code that is made of an image joins the others in step, or nothing is left of it. That is
a failure as long as the code ranges of the image can be counted. -/
theorem ofImage_inStep (h : Process.InStep since { engine, placed, codes }) (settings : Settings)
    (symbols : SymbolTable) (image : Image) :
    (ofImage settings symbols image).Ensures engine
      (fun code e => Process.InStep since { engine := e, placed, codes := code :: codes })
      (fun fault e => fault.ofMap = false ∧ (image.Indexable → fault.isViolation = false) ∧
        Process.InStep since { engine := e, placed, codes }) := by
  rw [ofImage]
  split
  · exact (Op.ensures_fail _).mpr ⟨rfl, fun _ => rfl, h⟩
  rename_i hfault
  have hchecked := Image.checked_of_fault? hfault
  refine (place_inStep h ..).bind (fun sharedStubs e he => ?_)
    (fun _ _ hfault => ⟨hfault.1, fun _ => hfault.2.1 _ hchecked.sharedStubs, hfault.2.2⟩)
  refine (place_inStep he.1 ..).bind (fun tier1 e' he' => ?_)
    (fun _ _ hfault => ⟨hfault.1, fun _ => hfault.2.1 _ hchecked.tier, hfault.2.2.discard⟩)
  refine (create_inStep settings symbols
    (he'.1.perm (List.Perm.swap ..) (List.Perm.refl _))).mono (fun _ _ h => h) (fun _ _ hfault => ?_)
  exact ⟨hfault.1, fun hindexable => hfault.2.1 (hchecked.fit hindexable he.2.2.1 he'.2.2.1 _), hfault.2.2⟩

/-- Module code that is loaded joins the others in step, or nothing is left of it. That is a failure
as long as the code ranges of the image can be counted. -/
theorem load_inStep (h : Process.InStep since { engine, placed, codes }) (settings : Settings)
    (symbols : SymbolTable) (bytes : Bytes) :
    (load settings symbols bytes).Ensures engine
      (fun code e => Process.InStep since { engine := e, placed, codes := code :: codes })
      (fun fault e => fault.ofMap = false ∧
        ((∀ image, Image.ofBytes bytes = .ok image → image.Indexable) → fault.isViolation = false) ∧
        Process.InStep since { engine := e, placed, codes }) := by
  rw [load]
  split
  · exact (Op.ensures_fail _).mpr ⟨rfl, fun _ => rfl, h⟩
  rename_i image hread
  exact (ofImage_inStep h ..).mono (fun _ _ h => h)
    (fun _ _ hfault => ⟨hfault.1, fun hall => hfault.2.1 (hall image hread), hfault.2.2⟩)

end ModuleCode

end CompiledCode

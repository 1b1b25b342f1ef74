import CompiledCode.Proofs.Process.Pieces
import CompiledCode.Proofs.Process.Saved
import Mathlib.Logic.Relation

/-!
# Code does not change

Code is written before the block that it is for becomes part of a module, and never afterwards. At
any time the pages of a block that a module owns are executable, and so not writable, and they hold
what the block was made of, patched for its address. Entry stubs may share a segment with older ones,
but each batch of them starts on a page of its own, so that no page of a block is made writable again
as long as some module owns the block; when a call fails, the pages that it has claimed are not
claimed again.

Whatever is made writable is made executable at once, or that is at least tried.
-/

namespace CompiledCode

/-- A block holds the same code when it is bound. -/
theorem Memory.Shows.rebound {memory : Memory} {block other : Block} {piece : Piece}
    (h : memory.Shows block piece) (hsame : block.Rebound other) : memory.Shows other piece := by
  obtain ⟨owner, serial, rfl⟩ := hsame
  exact { h with }

namespace ModuleCode

variable {engine after : Engine} {since : Memory} {placed : List Block} {codes : List ModuleCode}
  {settings : Settings} {symbols : SymbolTable} {code : ModuleCode}

/-- Module code that is loaded has two blocks, which hold the code in the image. -/
theorem load_blocks (h : Process.InStep since { engine, placed, codes }) {bytes : Bytes}
    {image : Image} (hread : Image.ofBytes bytes = .ok image)
    (hend : load settings symbols bytes engine = .ok code after) :
    code.blocks = [code.sharedStubs, code.tier1] ∧
      after.memory.Shows code.sharedStubs (.ofBlock image.sharedStubs image.sharedPlan symbols none) ∧
      after.memory.Shows code.tier1
        (.ofBlock image.tier image.tierPlan symbols (some code.sharedStubs)) := by
  obtain ⟨other, sharedStubs, tier1, middle, last, hother, hshared, htier1, hcreate⟩ :=
    load_eq_ok hend
  obtain rfl := Except.ok.inj (hread.symm.trans hother)
  obtain ⟨hmiddle, -, -, hshows⟩ := (place_inStep h ..).of_ok hshared
  obtain ⟨hlast, -, -, hshows'⟩ := (place_inStep hmiddle.now ..).of_ok htier1
  have hswapped := hlast.now.perm (List.Perm.swap ..) (List.Perm.refl _)
  have hafter := (create_inStep settings symbols hswapped).of_ok hcreate
  obtain ⟨hblocks, hbound, hbound'⟩ := ((create_content ..).of_ok hcreate).blocks
  have hkept := hshows.keeps (hmiddle.hosted _ List.mem_cons_self) (hlast.kept.trans hafter.kept)
  have hkept' := hshows'.keeps (hlast.hosted _ List.mem_cons_self) hafter.kept
  refine ⟨hblocks, hkept.rebound hbound, ?_⟩
  obtain ⟨owner, serial, hsame⟩ := hbound
  rw [hsame]
  exact hkept'.rebound hbound'

end ModuleCode

namespace Process

variable {since : Memory} {p q : Process} {engine : Engine} {placed : List Block}
  {codes : List ModuleCode} {code : ModuleCode} {block : Block}

/-- A step, a block that is made in it, and the piece of code that the block is made of. -/
inductive Makes : Process → Process → Block → Piece → Prop where
  /-- Compiled code is placed. -/
  | place {engine after : Engine} {placed : List Block} {codes : List ModuleCode}
      {compiled : CompiledBlock} {plan : PatchPlan} {symbols : SymbolTable} {shared : Option Block}
      {block : Block}
      (hend : Engine.onMemory (Block.place compiled plan symbols shared) engine = .ok block after) :
    Makes { engine, placed, codes } { engine := after, placed := block :: placed, codes } block
      (.ofBlock compiled plan symbols shared)
  /-- The shared stubs of an image are loaded. -/
  | loadStubs {engine after : Engine} {placed : List Block} {codes : List ModuleCode}
      {settings : Settings} {symbols : SymbolTable} {bytes : Bytes} {image : Image}
      {code : ModuleCode} (hread : Image.ofBytes bytes = .ok image)
      (hend : ModuleCode.load settings symbols bytes engine = .ok code after) :
    Makes { engine, placed, codes } { engine := after, placed, codes := code :: codes }
      code.sharedStubs (.ofBlock image.sharedStubs image.sharedPlan symbols none)
  /-- The tier of an image is loaded. -/
  | loadTier {engine after : Engine} {placed : List Block} {codes : List ModuleCode}
      {settings : Settings} {symbols : SymbolTable} {bytes : Bytes} {image : Image}
      {code : ModuleCode} (hread : Image.ofBytes bytes = .ok image)
      (hend : ModuleCode.load settings symbols bytes engine = .ok code after) :
    Makes { engine, placed, codes } { engine := after, placed, codes := code :: codes }
      code.tier1 (.ofBlock image.tier image.tierPlan symbols (some code.sharedStubs))
  /-- An optimized tier is installed. -/
  | installTier {engine : Engine} {placed : List Block} {codes : List ModuleCode}
      {code : ModuleCode} {compiler : StubCompiler} {plan : PatchPlan} {compiled : CompiledBlock}
      {t : Running} {tier2 : Block}
      (hend : (Running.installOptimized compiler plan compiled).ending { engine, code } =
        (.ok (), t))
      (htier2 : t.code.tier2 = .published tier2) :
    Makes { engine, placed, codes := code :: codes }
      { engine := t.engine, placed, codes := t.code :: codes } tier2
      (.ofBlock compiled plan code.symbols (some code.sharedStubs))
  /-- Entry stubs are made for an optimized tier. -/
  | installStubs {engine : Engine} {placed : List Block} {codes : List ModuleCode}
      {code : ModuleCode} {compiler : StubCompiler} {plan : PatchPlan} {compiled : CompiledBlock}
      {t : Running} {tier block : Block} {requests : List StubRequest} {stubs : CompiledStubs}
      (hend : (Running.installOptimized compiler plan compiled).ending { engine, code } =
        (.ok (), t))
      (hcompile : compiler.compile tier requests = .ok stubs) (hin : block ∈ t.code.blocks)
      (hnew : block ∉ code.blocks) (hother : t.code.tier2 ≠ .published block) :
    Makes { engine, placed, codes := code :: codes }
      { engine := t.engine, placed, codes := t.code :: codes } block
      (.ofStubs stubs code.symbols code.trapCode)
  /-- An entry stub is made. -/
  | entry {engine : Engine} {placed : List Block} {codes : List ModuleCode} {code : ModuleCode}
      {compiler : StubCompiler} {func : Nat} {found : FuncExport × Nat} {t : Running}
      {tier block : Block} {requests : List StubRequest} {stubs : CompiledStubs}
      (hend : (Running.interpEntry compiler func).ending { engine, code } = (.ok found, t))
      (hcompile : compiler.compile tier requests = .ok stubs) (hin : block ∈ t.code.blocks)
      (hnew : block ∉ code.blocks) :
    Makes { engine, placed, codes := code :: codes }
      { engine := t.engine, placed, codes := t.code :: codes } block
      (.ofStubs stubs code.symbols code.trapCode)

/-- A process, a block that it holds, and the piece of code that the block was made of. -/
inductive MadeFrom : Process → Block → Piece → Prop where
  /-- The block has just been made. -/
  | makes {p q : Process} {block : Block} {piece : Piece} (hreach : Reachable p) (hstep : Step p q)
      (hmakes : Makes p q block piece) : MadeFrom q block piece
  /-- The block was made before, and may have been bound since. -/
  | keeps {p q : Process} {block other : Block} {piece : Piece} (hmade : MadeFrom p block piece)
      (hstep : Step p q) (hin : other ∈ q.held) (hsame : block.Rebound other) :
    MadeFrom q other piece

/-- The blocks held are those of one of the modules and those held besides. -/
theorem mem_held_cons : block ∈ held { engine, placed, codes := code :: codes } ↔
    block ∈ code.blocks ∨ block ∈ held { engine, placed, codes } := by
  simp only [held, blocks, List.flatMap_cons, List.mem_append]
  exact or_left_comm

/-- Blocks of a module have different serial numbers, so that none is there twice. -/
theorem InStep.nodup (h : InStep since { engine, placed, codes := code :: codes }) :
    code.blocks.Nodup :=
  (h.serials.sublist ((List.sublist_append_left code.blocks _).map _)).of_map _

/-- An entry that is asked for leaves the module with the blocks that it had, or makes one. -/
theorem makes_of_entry (h : InStep engine.memory { engine, placed, codes := code :: codes })
    {compiler : StubCompiler} {func : Nat} {result : Except Fault (FuncExport × Nat)} {t : Running}
    (hend : (Running.interpEntry compiler func).ending { engine, code } = (result, t))
    (hcalm : ∀ violation, result ≠ .error (.violation violation)) (hin : block ∈ t.code.blocks) :
    block ∈ code.blocks ∨ ∃ piece, Makes { engine, placed, codes := code :: codes }
      { engine := t.engine, placed, codes := t.code :: codes } block piece ∧
      t.engine.memory.Shows block piece := by
  have hrunning : Running.InStep { engine, code } engine.memory placed codes := h
  cases result with
  | error fault =>
    have hafter := (Running.interpEntry_enlarged func).ending hend
    cases fault with
    | violation violation => exact absurd rfl (hcalm violation)
    | failure failure =>
      obtain ⟨calls, tier2, -, hcontent⟩ := hafter rfl
      have hblocks : t.code.blocks = code.blocks := (congrArg ModuleCode.blocks hcontent :)
      exact .inl (hblocks ▸ hin)
  | ok found =>
    have hafter : InStep _ { engine := t.engine, placed, codes := t.code :: codes } :=
      (Running.interpEntry_inStep hrunning func).ending hend
    rcases (Running.interpEntry_gains hrunning func).ending hend with
      hsame | ⟨tier, requests, stubs, made, hcompile, hblocks, hshows⟩
    · exact .inl (hsame ▸ hin)
    · have hnodup := hafter.nodup
      dsimp only at hblocks
      rw [hblocks] at hnodup
      obtain hbefore | hmade := List.mem_append.mp (hblocks ▸ hin)
      · exact .inl hbefore
      · obtain rfl := List.mem_singleton.mp hmade
        have hnew : block ∉ code.blocks :=
          fun hbefore => List.disjoint_of_nodup_append hnodup hbefore List.mem_cons_self
        exact .inr ⟨_, .entry hend hcompile hin hnew, hshows⟩

/-- An install leaves the module with the blocks that it had, or makes a tier and stubs for it. -/
theorem makes_of_install (h : InStep engine.memory { engine, placed, codes := code :: codes })
    {compiler : StubCompiler} {plan : PatchPlan} {compiled : CompiledBlock}
    {result : Except Fault Unit} {t : Running}
    (hend : (Running.installOptimized compiler plan compiled).ending { engine, code } = (result, t))
    (hcalm : ∀ violation, result ≠ .error (.violation violation)) (hin : block ∈ t.code.blocks) :
    block ∈ code.blocks ∨ ∃ piece, Makes { engine, placed, codes := code :: codes }
      { engine := t.engine, placed, codes := t.code :: codes } block piece ∧
      t.engine.memory.Shows block piece := by
  have hrunning : Running.InStep { engine, code } engine.memory placed codes := h
  cases result with
  | error fault =>
    have hafter := (Running.installOptimized_enlarged plan compiled).ending hend
    cases fault with
    | violation violation => exact absurd rfl (hcalm violation)
    | failure failure =>
      obtain ⟨-, rfl⟩ | ⟨-, calls, hcontent⟩ := hafter rfl
      · exact .inl hin
      · have hblocks : t.code.blocks = code.blocks := (congrArg ModuleCode.blocks hcontent :)
        exact .inl (hblocks ▸ hin)
  | ok =>
    have hafter : InStep _ { engine := t.engine, placed, codes := t.code :: codes } :=
      ((Running.installOptimized_inStep hrunning plan compiled).ending hend).1
    have hnodup := hafter.nodup
    obtain ⟨tier2, htier2, hshows, hgains⟩ :=
      (Running.installOptimized_gains hrunning plan compiled).ending hend
    rcases hgains with hsame | ⟨tier, requests, stubs, made, hcompile, hblocks, hstubs⟩
    · obtain hbefore | hmade := List.mem_append.mp (hsame ▸ hin)
      · exact .inl hbefore
      · obtain rfl := List.mem_singleton.mp hmade
        exact .inr ⟨_, .installTier hend htier2, hshows⟩
    · rw [hblocks] at hin hnodup
      obtain hold | hmade := List.mem_append.mp hin
      · obtain hbefore | hmade := List.mem_append.mp hold
        · exact .inl hbefore
        · obtain rfl := List.mem_singleton.mp hmade
          exact .inr ⟨_, .installTier hend htier2, hshows⟩
      · obtain rfl := List.mem_singleton.mp hmade
        have hlast : block ∉ (code.withBlock tier2).blocks :=
          fun hbefore => List.disjoint_of_nodup_append hnodup hbefore List.mem_cons_self
        have hnew : block ∉ code.blocks := fun hbefore => hlast (List.mem_append_left _ hbefore)
        have hother : t.code.tier2 ≠ .published block := by
          intro hpublished
          obtain rfl := OptimizedTier.published.inj (htier2.symm.trans hpublished)
          exact hlast (List.mem_append_right _ List.mem_cons_self)
        have hlisted : block ∈ t.code.blocks := hblocks ▸ hin
        exact .inr ⟨_, .installStubs hend hcompile hlisted hnew hother, hstubs⟩

/-- A block that is held after a step was held before, or has been made in the step. -/
theorem Step.makes_or_held (hstep : Step p q) (h : InStep p.engine.memory p)
    (hin : block ∈ q.held) :
    (∃ other ∈ p.held, other.Rebound block) ∨
      ∃ piece, Makes p q block piece ∧ q.engine.memory.Shows block piece := by
  have hsame : ∀ {other : Process}, block ∈ other.held → ∃ held ∈ other.held, held.Rebound block :=
    fun hheld => ⟨block, hheld, .refl block⟩
  cases hstep with
  | reorder hplaced hcodes =>
    have hheld := hplaced.append (hcodes.flatMap_right fun code : ModuleCode => code.blocks)
    exact .inl (hsame (hheld.mem_iff.mpr hin))
  | place hend =>
    obtain rfl | hbefore := List.mem_cons.mp hin
    · exact .inr ⟨_, .place hend, ((ModuleCode.place_inStep h ..).of_ok hend).2.2.2⟩
    · exact .inl (hsame hbefore)
  | placeFails | loadFails | unmap => exact .inl (hsame hin)
  | discard => exact .inl (hsame (List.mem_cons_of_mem _ hin))
  | create hend =>
    obtain ⟨hblocks, hshared, htier1⟩ := ((ModuleCode.create_content ..).of_ok hend).blocks
    obtain hnew | hbefore := mem_held_cons.mp hin
    · rw [hblocks, List.mem_pair] at hnew
      obtain rfl | rfl := hnew
      · exact .inl ⟨_, List.mem_cons_self, hshared⟩
      · exact .inl ⟨_, List.mem_cons_of_mem _ List.mem_cons_self, htier1⟩
    · exact .inl (hsame (List.mem_cons_of_mem _ (List.mem_cons_of_mem _ hbefore)))
  | createFails =>
    exact .inl (hsame (List.mem_cons_of_mem _ (List.mem_cons_of_mem _ hin)))
  | load hend =>
    obtain ⟨image, -, -, -, -, hread, -⟩ := ModuleCode.load_eq_ok hend
    obtain ⟨hblocks, hshared, htier1⟩ := ModuleCode.load_blocks h hread hend
    obtain hnew | hbefore := mem_held_cons.mp hin
    · rw [hblocks, List.mem_pair] at hnew
      obtain rfl | rfl := hnew
      · exact .inr ⟨_, .loadStubs hread hend, hshared⟩
      · exact .inr ⟨_, .loadTier hread hend, htier1⟩
    · exact .inl (hsame hbefore)
  | entry hasks hend hcalm =>
    obtain hown | hbefore := mem_held_cons.mp hin
    · refine (makes_of_entry h hend hcalm hown).imp_left fun hown => hsame ?_
      exact mem_held_cons.mpr (.inl hown)
    · exact .inl (hsame (mem_held_cons.mpr (.inr hbefore)))
  | install hend hcalm =>
    obtain hown | hbefore := mem_held_cons.mp hin
    · refine (makes_of_install h hend hcalm hown).imp_left fun hown => hsame ?_
      exact mem_held_cons.mpr (.inl hown)
    · exact .inl (hsame (mem_held_cons.mpr (.inr hbefore)))
  | dispatch => exact .inl (hsame hin)
  | @label engine placed codes code wanted =>
    obtain ⟨labels, hlabels⟩ := ModuleCode.exists_ensureLabels_eq code wanted
    rw [hlabels] at hin
    exact .inl (hsame hin)
  | drop => exact .inl (hsame (mem_held_cons.mpr (.inr hin)))

/-- A block that is held holds the piece of code that it was made of. -/
theorem Reachable.exists_madeFrom (h : Reachable p) :
    ∀ block ∈ p.held, ∃ piece, MadeFrom p block piece ∧ p.engine.memory.Shows block piece := by
  induction h with
  | start => exact List.forall_mem_nil _
  | step hreach hstep ih =>
    intro block hin
    rcases hstep.makes_or_held hreach.inStep hin with
      ⟨other, hbefore, hsame⟩ | ⟨piece, hmakes, hshows⟩
    · obtain ⟨piece, hmade, hshows⟩ := ih other hbefore
      have hafter := hstep.shows hreach.inStep hbefore hshows
      exact ⟨piece, .keeps hmade hstep hin hsame, hafter.rebound hsame⟩
    · exact ⟨piece, .makes hreach hstep hmakes, hshows⟩

/-- The pages of a block that is held are executable. -/
theorem InStep.sealed (h : InStep since p) (hin : block ∈ p.held) :
    p.engine.memory.Sealed block.base block.length := by
  obtain hempty | ⟨-, -, -, hsealed⟩ := h.hosted block hin
  · rw [Block.isEmpty, beq_iff_eq] at hempty
    intro place hstart hstop
    omega
  · exact hsealed

/-- Whether calls make no page of a block writable. -/
def SparesBlock (calls : List SystemCall) (block : Block) : Prop :=
  ∀ call ∈ calls, call.gives = some .writable →
    ∀ place, block.base ≤ place → place < block.base + block.length →
      ¬call.concerns (place / Page.size)

/-- The calls of a step leave nothing writable that they make so, and make no page of a block that
is held writable. -/
theorem Step.calls (hstep : Step p q) (h : InStep p.engine.memory p) :
    ∃ calls, q.engine.memory.log = calls ++ p.engine.memory.log ∧ SystemCall.Restores calls ∧
      ∀ block ∈ p.held, SparesBlock calls block := by
  rcases hstep.inStep_or_unmap h with hq | ⟨mapping, -, rfl⟩
  · obtain ⟨calls, hlog, hspared⟩ := hq.kept.calls
    refine ⟨calls, hlog, hspared.restores, fun block hin call hcall hgives place hstart hstop => ?_⟩
    obtain hempty | ⟨hmapped, hcapacity, hinUse, -⟩ := h.hosted block hin
    · rw [Block.isEmpty, beq_iff_eq] at hempty
      omega
    · exact hspared.spared call hcall hgives place
        (Memory.claimed_of_hosts hmapped hcapacity hinUse hstart hstop)
  · exact ⟨[], rfl, SystemCall.restores_nil, fun _ _ => List.forall_mem_nil _⟩

/-- A step leaves the bytes of a block alone. -/
theorem Step.read_eq (hstep : Step p q) (h : InStep p.engine.memory p) (hin : block ∈ p.held) :
    q.engine.memory.read block.base block.length = p.engine.memory.read block.base block.length := by
  rcases hstep.inStep_or_unmap h with hq | ⟨mapping, hspares, rfl⟩
  · exact (h.hosted block hin).read_keeps hq.kept
  · exact h.read_unmap hspares hin

/-- A step that starts while some module owns a block. -/
def StepOwning (block : Block) (p q : Process) : Prop := block ∈ p.blocks ∧ Step p q

/-- Whatever has run so far, the process can be reached. -/
theorem Reachable.run (h : Reachable p) (hrun : Relation.ReflTransGen Step p q) : Reachable q := by
  induction hrun with
  | refl => exact h
  | tail _ hstep ih => exact ih.step hstep

/-- Whatever a run makes writable it makes executable at once, or tries to. -/
theorem Reachable.restores (h : Reachable p) (hrun : Relation.ReflTransGen Step p q) :
    ∃ calls, q.engine.memory.log = calls ++ p.engine.memory.log ∧ SystemCall.Restores calls := by
  induction hrun with
  | refl => exact ⟨[], rfl, SystemCall.restores_nil⟩
  | tail hbefore hstep ih =>
    obtain ⟨earlier, hearlier, hrestores⟩ := ih
    obtain ⟨later, hlater, hrestores', -⟩ := hstep.calls (h.run hbefore).inStep
    refine ⟨later ++ earlier, ?_, hrestores'.append hrestores⟩
    rw [hlater, hearlier, List.append_assoc]

/-- As long as a block is owned its bytes stay and none of its pages is made writable. -/
theorem Reachable.spares (h : Reachable p) (hrun : Relation.ReflTransGen (StepOwning block) p q) :
    Reachable q ∧ (∃ calls, q.engine.memory.log = calls ++ p.engine.memory.log ∧
      SparesBlock calls block) ∧
    q.engine.memory.read block.base block.length = p.engine.memory.read block.base block.length := by
  induction hrun with
  | refl => exact ⟨h, ⟨[], rfl, List.forall_mem_nil _⟩, rfl⟩
  | tail _ hstep ih =>
    obtain ⟨hreach, ⟨earlier, hearlier, hspares⟩, hread⟩ := ih
    obtain ⟨howned, hstep⟩ := hstep
    have hheld : block ∈ held _ := List.mem_append_right _ howned
    obtain ⟨later, hlater, -, hspares'⟩ := hstep.calls hreach.inStep
    refine ⟨hreach.step hstep, ⟨later ++ earlier, ?_, ?_⟩, ?_⟩
    · rw [hlater, hearlier, List.append_assoc]
    · exact List.forall_mem_append.mpr ⟨hspares' block hheld, hspares⟩
    · exact (hstep.read_eq hreach.inStep hheld).trans hread

/-- At any time the pages of a block that a module owns are executable, by the last granted call
that concerns them, and hold the code that the block was made of, patched for its address. As long as
the block is owned no call makes any of them writable and none of its bytes changes; and whatever a
run makes writable it makes executable at once, or tries to. -/
theorem published_code_is_sealed (h : Reachable p) :
    (∀ block ∈ p.blocks, p.engine.memory.Sealed block.base block.length ∧
      ∃ piece, MadeFrom p block piece ∧ p.engine.memory.Shows block piece) ∧
    (∀ block q, Relation.ReflTransGen (StepOwning block) p q →
      (∃ calls, q.engine.memory.log = calls ++ p.engine.memory.log ∧ SparesBlock calls block) ∧
        q.engine.memory.read block.base block.length =
          p.engine.memory.read block.base block.length) ∧
    ∀ q, Relation.ReflTransGen Step p q →
      ∃ calls, q.engine.memory.log = calls ++ p.engine.memory.log ∧ SystemCall.Restores calls := by
  refine ⟨fun block hin => ?_, fun block q hrun => (h.spares hrun).2, fun q hrun => h.restores hrun⟩
  have hheld : block ∈ p.held := List.mem_append_right _ hin
  exact ⟨h.inStep.sealed hheld, h.exists_madeFrom block hheld⟩

/-- The code of a module that has been loaded is executable and holds what it was made of. -/
theorem published_code_is_sealed_once_loaded :
    ∃ p : Process, Reachable p ∧ ∃ block ∈ p.blocks, block.contains 0x200000000000 = true ∧
      p.engine.memory.accessTo (0x200000000000 / Page.size) = some .executable ∧
      ∃ piece, MadeFrom p block piece ∧ p.engine.memory.Shows block piece := by
  obtain ⟨code, engine, hload, hfound⟩ := load_oneFunction
  have hloaded := reachable_start.step (.load hload)
  rw [Engine.isCode, Option.isSome_iff_exists] at hfound
  obtain ⟨block, hblock⟩ := hfound
  obtain ⟨hin, hcontains⟩ := (hloaded.inStep.lookup_eq_some_iff _ block).mp hblock
  obtain ⟨hsealed, hmade⟩ := (published_code_is_sealed hloaded).1 block hin
  have hbounds := hcontains
  simp only [Block.contains, Bool.and_eq_true, decide_eq_true_eq] at hbounds
  exact ⟨_, hloaded, block, hin, hcontains, hsealed _ hbounds.1 hbounds.2, hmade⟩

end Process

end CompiledCode

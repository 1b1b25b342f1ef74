import CompiledCode.Proofs.Process.StubRoom

/-!
# Segments are in use by the page

Whatever is claimed of a segment for entry stubs is whole pages, so that the next claim starts on a page,
as changes of protection ask for. Only three operations change how much is in use of a segment, and
each of them leaves it in use up to the end of a page if it was so before.

A process may begin with anything in use of segments that no module has yet. A segment for stubs
starts out with nothing in use whatever was there before.
-/

namespace CompiledCode

namespace Op

variable {σ τ α β γ : Type} {kept : σ → Prop}

/-- Whether a property that holds before an operation holds after it, however it ends. -/
def Maintains (kept : σ → Prop) (op : Op σ α) : Prop :=
  ∀ s, kept s → op.Ensures s (fun _ => kept) (fun _ => kept)

theorem maintains_pure (value : α) : (pure value : Op σ α).Maintains kept :=
  fun _ hs => (ensures_pure value).mpr hs

theorem maintains_get : (get : Op σ σ).Maintains kept := fun _ hs => ensures_get.mpr hs

theorem maintains_modify {f : σ → σ} (h : ∀ s, kept s → kept (f s)) :
    (modify f : Op σ PUnit).Maintains kept :=
  fun s hs => (ensures_modify f).mpr (h s hs)

theorem maintains_fail (cause : Cause) : (fail cause : Op σ α).Maintains kept :=
  fun _ hs => (ensures_fail cause).mpr hs

theorem maintains_violate (violation : Violation) : (violate violation : Op σ α).Maintains kept :=
  fun _ hs => (ensures_violate violation).mpr hs

theorem maintains_require (condition : Bool) (violation : Violation) :
    (require condition violation : Op σ Unit).Maintains kept := by
  cases condition with
  | true => exact maintains_pure ()
  | false => exact maintains_violate violation

theorem maintains_ofExcept (result : Except Fault α) : (ofExcept result : Op σ α).Maintains kept := by
  intro s hs
  rw [ensures_ofExcept]
  split <;> exact hs

/-- What a frugal operation does not touch is as it was. -/
theorem Frugal.maintains {op : Op σ α} {view : σ → γ} (h : op.Frugal view)
    (hview : ∀ s t, view t = view s → kept s → kept t) : op.Maintains kept :=
  fun s hs => h.ensures (fun _ t ht => hview s t ht hs) fun _ t ht _ => hview s t ht hs

/-- One operation after another maintains what both do. -/
theorem Maintains.bind {op : Op σ β} {next : β → Op σ α} (h : op.Maintains kept)
    (hnext : ∀ value, (next value).Maintains kept) : (op >>= next).Maintains kept :=
  fun s hs => (h s hs).bind (fun value t ht => hnext value t ht) (fun _ _ ht => ht)

/-- Whatever else is being done, an operation maintains as much. -/
theorem Maintains.during {op : Op σ α} (h : op.Maintains kept) (activity : Activity) :
    (during activity op).Maintains kept :=
  fun s hs => (h s hs).during

/-- Undoing something maintains as much, too. -/
theorem Maintains.onFailure {op : Op σ α} {undo : Op σ Unit} (h : op.Maintains kept)
    (hundo : undo.Maintains kept) : (onFailure op undo).Maintains kept := by
  intro s hs
  refine (ensures_onFailure op undo).mpr ((h s hs).mono (fun _ _ ht => ht) fun fault t ht => ?_)
  cases fault with
  | failure failure => exact hundo t ht
  | violation violation => exact ht

end Op

open Op

/-- Whether the segments that start at some addresses are in use up to the end of a page. -/
def Memory.Paged (bases : Nat → Prop) (memory : Memory) : Prop :=
  ∀ base, bases base → Page.aligned (memory.inUse base) = true

namespace Memory

variable {bases : Nat → Prop} {memory : Memory}

/-- What is in use of a segment may become any number of pages. -/
theorem Paged.setInUse (h : memory.Paged bases) {base bytes : Nat}
    (hbytes : bases base → Page.aligned bytes = true) : (memory.setInUse base bytes).Paged bases := by
  intro other hother
  change Page.aligned (if other = base then bytes else memory.inUse other) = true
  split
  · rename_i hsame
    exact hbytes (hsame ▸ hother)
  · exact h other hother

/-- Segments are in use by the page as long as nothing is used of any. -/
theorem Paged.of_inUse {after : Memory} (h : memory.Paged bases) (hsame : after.inUse = memory.inUse) :
    after.Paged bases := by
  intro base hbase
  rw [hsame]
  exact h base hbase

/-- An operation that takes no room leaves segments in use by the page. -/
theorem maintains_paged {α : Type} {op : Op Memory α} (h : op.Frugal Memory.inUse) :
    op.Maintains (Paged bases) :=
  h.maintains fun _ _ hsame hs => hs.of_inUse hsame

end Memory

namespace Segment

variable {bases : Nat → Prop}

theorem obtain_paged (bytes : Nat) : (obtain bytes).Maintains (Memory.Paged bases) :=
  fun _ hs => (obtain_inUse bytes).mono (fun _ _ h => hs.of_inUse h) fun _ _ h => hs.of_inUse h

theorem reserve_paged (bytes : Nat) : (reserve bytes).Maintains (Memory.Paged bases) :=
  (obtain_paged bytes).bind fun _ =>
    (maintains_modify fun _ hs => hs.setInUse fun _ => rfl).bind fun _ => maintains_pure _

/-- A claim of whole pages ends at the end of a page. -/
theorem claim_paged (segment : Segment) {bytes : Nat} (hbytes : Page.aligned bytes = true) :
    (segment.claim bytes).Maintains (Memory.Paged bases) := by
  intro memory hmemory
  refine claim_ensures_of (fun _ => hmemory.setInUse fun hbase => ?_) fun _ => hmemory
  have hbefore := hmemory segment.base hbase
  rw [Page.aligned, beq_iff_eq] at hbefore hbytes ⊢
  rw [length, Nat.add_mod, hbefore, hbytes]
  rfl

theorem place_paged (code : Bytes) (plan : PatchPlan) (symbols : SymbolTable)
    (trapHandler : Option UInt64) :
    (place code plan symbols trapHandler).Maintains (Memory.Paged bases) := by
  intro memory hmemory
  refine place_ensures_of (fun _ _ => hmemory)
    (fun capacity _ => obtain_paged capacity memory hmemory) fun capacity segment after hcapacity h => ?_
  have haligned : Page.aligned capacity = true := beq_iff_eq.mpr (Page.roundUp_eq_ok hcapacity).1
  exact Memory.maintains_paged (segment.frugal_install _ _ _ _ _) _ (h.setInUse fun _ => haligned)

end Segment

theorem Block.place_paged {bases : Nat → Prop} (compiled : CompiledBlock) (plan : PatchPlan)
    (symbols : SymbolTable) (shared : Option Block) :
    (place compiled plan symbols shared).Maintains (Memory.Paged bases) := by
  refine ((Segment.place_paged _ _ _ _).during _).bind fun segment =>
    (Memory.maintains_paged (Block.frugal_make _ _ _ _ _)).bind fun block => ?_
  split <;> exact maintains_pure _

namespace Running

variable {s t : Running} {bases : Nat → Prop} {compiler : StubCompiler} {tier : Block}
  {requests : List StubRequest} {α : Type}

/-- Whether the segments for entry stubs, and those that start at some addresses, are in use up to the end
of a page. -/
structure PagedWith (bases : Nat → Prop) (s : Running) : Prop where
  own : s.Paged
  others : s.engine.memory.Paged bases

/-- Segments are in use by the page as long as nothing is used of them. -/
theorem PagedWith.of_room (h : s.PagedWith bases) (hroom : t.room = s.room) : t.PagedWith bases := by
  have hsegments : t.code.lazySegments = s.code.lazySegments := congrArg Prod.fst hroom
  have hinUse : t.engine.memory.inUse = s.engine.memory.inUse := congrArg Prod.snd hroom
  constructor
  · intro segment hin
    rw [Segment.length, hinUse]
    exact h.own segment (hsegments ▸ hin)
  · exact h.others.of_inUse hinUse

/-- An operation that takes no room leaves segments in use by the page. -/
theorem maintains_paged {op : Op Running α} (h : op.Frugal room) : op.Maintains (PagedWith bases) :=
  h.maintains fun _ _ hroom hs => hs.of_room hroom

/-- What leaves any segments of code memory in use by the page does so for those of the module. -/
theorem onMemory_paged {op : Op Memory α} (h : ∀ bases, op.Maintains (Memory.Paged bases)) :
    (onMemory op).Maintains (PagedWith bases) := by
  intro s hs
  let all (base : Nat) : Prop := bases base ∨ ∃ segment ∈ s.code.lazySegments, segment.base = base
  have hall : s.engine.memory.Paged all := by
    rintro base (hbase | ⟨segment, hin, rfl⟩)
    · exact hs.others base hbase
    · exact hs.own segment hin
  have hafter (memory : Memory) (hmemory : memory.Paged all) :
      PagedWith bases { s with engine := { s.engine with memory } } :=
    ⟨fun segment hin => hmemory _ (.inr ⟨segment, hin, rfl⟩), fun base hbase => hmemory base (.inl hbase)⟩
  exact (ensures_onMemory op).mpr ((h all _ hall).mono (fun _ m hm => hafter m hm) fun _ m hm => hafter m hm)

/-- A change that no index takes part in uses nothing of a segment. -/
theorem SameIndexes.pagedWith (h : s.SameIndexes t) (hs : s.PagedWith bases) : t.PagedWith bases := by
  refine hs.of_room ?_
  rw [room, room, h.segments, h.engine]

/-- A table takes nothing of a segment. -/
theorem grow_paged (bytes : Nat) : (onMemory (Memory.grow bytes)).Maintains (PagedWith bases) :=
  maintains_paged (frugal_onMemory (Memory.frugal_grow bytes))

/-- A segment for stubs starts out with nothing in use. -/
theorem stubSegment_paged (needed : Nat) : (stubSegment needed).Maintains (PagedWith bases) := by
  intro s hs
  refine stubSegment_ensures (fun _ _ _ => hs) (fun _ => hs) (fun bytes => grow_paged bytes s hs)
    fun t bytes ht _ => ?_
  have hlength : (onMemory (Segment.reserve bytes)).Ensures t
      (fun segment u => segment.length u.engine.memory = 0) (fun _ _ => True) := by
    refine (ensures_onMemory _).mpr ((ensures_true _ _).bind (fun segment m _ => ?_) fun _ _ h => h)
    rw [ensures_bind, ensures_modify, ensures_pure]
    exact if_pos rfl
  refine ((onMemory_paged (fun _ => Segment.reserve_paged bytes) t ht).and hlength).during_of
    (fun _ _ h => h) |>.mono (fun segment u hu => ?_) (fun _ _ h => h.1)
  refine ⟨List.forall_mem_append.mpr ⟨hu.1.own, List.forall_mem_singleton.mpr ?_⟩, hu.1.others⟩
  rw [hu.2]
  rfl

/-- Stubs are put into whole pages. -/
theorem placeStubs_paged (stubs : CompiledStubs) :
    (placeStubs stubs requests).Maintains (PagedWith bases) := by
  intro s hs
  refine placeStubs_ensures (fun _ => hs) fun entries needed _ hneeded => ?_
  have haligned : Page.aligned needed = true := beq_iff_eq.mpr (Page.roundUp_eq_ok hneeded).1
  refine (stubSegment_paged needed s hs).mono (fun segment t ht => ?_) (fun _ _ h => h)
  refine (onMemory_paged (fun _ => segment.claim_paged haligned) t ht).mono (fun offset u hu => ?_)
    (fun _ _ h => h)
  exact maintains_paged (frugal_putStubs stubs entries segment offset) u hu

theorem createStubs_paged : (createStubs compiler requests tier).Maintains (PagedWith bases) := by
  have hcompile : (compileStubs compiler tier requests).Maintains (PagedWith bases) := fun _ hs =>
    compileStubs_sameIndexes.mono (fun _ _ ht => ht.pagedWith hs) fun _ _ ht => ht.2.pagedWith hs
  exact (hcompile.during _).bind fun stubs => placeStubs_paged stubs

theorem createStub_paged (exportIndex : Nat) (entry : FuncExport) :
    (createStub compiler exportIndex entry tier).Maintains (PagedWith bases) := by
  intro s hs
  refine createStub_ensures (fun _ _ => hs) (fun bytes => grow_paged bytes s hs) (fun _ _ ht => ht)
    fun t position address ht _ _ => ?_
  exact (createStubs_paged t ht).mono
    (fun made u hu => maintains_paged (frugal_fileStub _ _ _ made) u hu) (fun _ _ h => h)

theorem interpEntry_paged (func : Nat) : (interpEntry compiler func).Maintains (PagedWith bases) :=
  fun s hs => interpEntry_ensures hs (fun _ _ => hs) fun exportIndex entry _ =>
    (createStub_paged exportIndex entry).during _ s hs

theorem upgradeStubs_paged (tier2 : Block) :
    (upgradeStubs compiler tier2).Maintains (PagedWith bases) := by
  intro s hs
  refine upgradeStubs_ensures (fun _ => hs) (fun bytes => grow_paged bytes s hs) (fun _ _ ht => ht)
    fun t requests ht _ => ?_
  exact (createStubs_paged t ht).mono (fun _ _ hu => hu.of_room rfl) (fun _ _ h => h)

theorem installOptimized_paged (plan : PatchPlan) (compiled : CompiledBlock) :
    (installOptimized compiler plan compiled).Maintains (PagedWith bases) := by
  have hbegin : (beginInstall compiled.kind).Maintains (PagedWith bases) := fun _ hs =>
    (beginInstall_sameIndexes _).mono (fun _ _ ht => ht.pagedWith hs) fun _ _ ht => ht.2.pagedWith hs
  have hbuild : (buildOptimized plan compiled).Maintains (PagedWith bases) :=
    (maintains_paged frugal_current).bind fun _ =>
      (onMemory_paged fun _ => Block.place_paged _ _ _ _).bind fun block =>
        maintains_paged (frugal_bindBlock _ block)
  have hinstall : (installTier compiler plan compiled).Maintains (PagedWith bases) :=
    hbuild.bind fun tier2 => (maintains_paged (frugal_addBlock tier2)).bind fun _ =>
      ((upgradeStubs_paged tier2).onFailure
        (maintains_paged (frugal_of_storage (frugal_popBlock tier2)))).bind
        fun stubIndex => maintains_paged ((frugal_change fun _ => by rfl).bind fun _ =>
          frugal_redirect tier2 stubIndex)
  exact hbegin.bind fun _ => hinstall.onFailure (maintains_paged (frugal_change fun _ => by rfl))

theorem frugal_retire : retire.Frugal room := by
  have howners (number : Nat) : (onEngine (modify fun engine =>
      { engine with owners := engine.owners.filter (· ≠ number) })).Frugal room :=
    fun _ => (ensures_focus _ _ _).mpr ((ensures_modify _).mpr rfl)
  refine frugal_current.bind fun code => (howners code.number).bind fun _ => Frugal.forM fun block _ => ?_
  split
  · exact frugal_pure ()
  · exact frugal_of_storage (frugal_unregisterBlock block)

end Running

namespace ModuleCode

variable {bases : Nat → Prop}

/-- Creating the code of a module takes no room. -/
theorem create_inUse (settings : Settings) (symbols : SymbolTable) (parts : ModuleParts)
    (inUse : Nat → Nat) :
    (create settings symbols parts).Maintains fun engine => engine.memory.inUse = inUse := by
  have hgrow : (Engine.onMemory (growDispatchTables settings.mode parts)).Maintains
      fun engine => engine.memory.inUse = inUse := by
    have hframe : (growDispatchTables settings.mode parts).Frugal Memory.inUse := by
      rw [growDispatchTables]
      dsimp only
      split
      · exact (Memory.frugal_grow _).bind fun _ => Memory.frugal_grow _
      · exact Memory.frugal_grow _
    exact fun engine hengine => (ensures_focus _ _ _).mpr
      (hframe.ensures (fun _ _ h => h.trans hengine) fun _ _ h _ => h.trans hengine)
  have hbind (number : Nat) (block : Block) : (Engine.bindBlock number block).Maintains
      fun engine => engine.memory.inUse = inUse := fun engine hengine =>
    (Engine.bindBlock_violates number block engine).mono
      (fun _ _ h => (congrArg Memory.inUse h).trans hengine)
      fun _ _ h => (congrArg Memory.inUse h.2).trans hengine
  have hstart (code : ModuleCode) (sharedStubs tier1 : Block) : (started code do
      Op.onFailure (Running.addFirstBlocks sharedStubs tier1) Running.retire
      Running.change (·.ensureLabels settings.profiling)).Maintains
        fun engine => engine.memory.inUse = inUse := by
    intro engine hengine
    have hadd : (Running.addFirstBlocks sharedStubs tier1).Frugal Running.room :=
      (Running.frugal_addBlock _).bind fun _ => (Running.frugal_addBlock _).bind fun _ =>
        frugal_pure _
    have hlabel : (Running.change (·.ensureLabels settings.profiling)).Frugal Running.room :=
      Running.frugal_change fun s => by
        obtain ⟨labels, hlabels⟩ := exists_ensureLabels_eq s.code settings.profiling
        rw [hlabels]
        rfl
    have hall := (hadd.onFailure Running.frugal_retire).bind fun _ => hlabel
    refine (started_ensures (hall { engine, code })).mono
      (fun _ _ h => (congrArg Prod.snd h :).trans hengine) (fun _ _ hfault => ?_)
    obtain ⟨_, h, -⟩ := hfault
    exact (congrArg Prod.snd h :).trans hengine
  exact (maintains_require _ _).bind fun _ => (maintains_require _ _).bind fun _ =>
    (hgrow.during _).bind fun _ => (maintains_ofExcept _).bind fun _ => maintains_get.bind fun _ =>
      (maintains_modify fun _ h => by exact h).bind fun _ => (hbind _ _).bind fun sharedStubs =>
        (hbind _ _).bind fun tier1 => (maintains_modify fun _ h => by exact h).bind fun _ =>
          hstart _ sharedStubs tier1

/-- Placing compiled code leaves segments in use by the page. -/
theorem place_paged (compiled : CompiledBlock) (plan : PatchPlan) (symbols : SymbolTable)
    (shared : Option Block) :
    (Engine.onMemory (Block.place compiled plan symbols shared)).Maintains
      fun engine => engine.memory.Paged bases :=
  fun engine hengine => (ensures_focus _ _ _).mpr (Block.place_paged _ _ _ _ engine.memory hengine)

theorem create_paged (settings : Settings) (symbols : SymbolTable) (parts : ModuleParts) :
    (create settings symbols parts).Maintains fun engine => engine.memory.Paged bases :=
  fun engine hengine => (create_inUse settings symbols parts _ engine rfl).mono
    (fun _ _ h => hengine.of_inUse h) fun _ _ h => hengine.of_inUse h

theorem load_paged (settings : Settings) (symbols : SymbolTable) (bytes : Bytes) :
    (load settings symbols bytes).Maintains fun engine => engine.memory.Paged bases := by
  rw [load]
  split
  · exact maintains_fail _
  rename_i image _
  rw [ofImage]
  split
  · exact maintains_fail _
  · exact (place_paged _ _ _ _).bind fun sharedStubs => (place_paged _ _ _ _).bind fun tier1 =>
      create_paged _ _ _

end ModuleCode

namespace Process

variable {p q : Process} {code : ModuleCode} {codes : List ModuleCode}

/-- Whether a segment for entry stubs of some module starts at an address. -/
def StubBase (codes : List ModuleCode) (base : Nat) : Prop :=
  ∃ code ∈ codes, ∃ segment ∈ code.lazySegments, segment.base = base

/-- Whether the segments for entry stubs of each module are in use up to the end of a page. -/
def Paged (process : Process) : Prop := process.engine.memory.Paged (StubBase process.codes)

/-- The segments of one module and of the others are those of all modules. -/
theorem paged_cons {engine : Engine} :
    engine.memory.Paged (StubBase (code :: codes)) ↔
      Running.PagedWith (StubBase codes) { engine, code } := by
  constructor
  · intro h
    exact ⟨fun segment hin => h _ ⟨code, List.mem_cons_self, segment, hin, rfl⟩,
      fun base ⟨other, hother, hbase⟩ => h base ⟨other, List.mem_cons_of_mem _ hother, hbase⟩⟩
  · rintro h base ⟨other, hother, segment, hin, rfl⟩
    rcases List.mem_cons.mp hother with rfl | hother
    · exact h.own segment hin
    · exact h.others _ ⟨other, hother, segment, hin, rfl⟩

/-- A module without segments for entry stubs adds none. -/
theorem paged_cons_of_none {engine : Engine} (hnone : code.lazySegments = [])
    (h : engine.memory.Paged (StubBase codes)) : engine.memory.Paged (StubBase (code :: codes)) :=
  paged_cons.mpr ⟨fun segment hin => by rw [hnone] at hin; contradiction, h⟩

/-- Segments for entry stubs are in use by the page whatever happens next. -/
theorem Step.paged (hstep : Step p q) (h : Paged p) : Paged q := by
  cases hstep with
  | reorder _ hcodes =>
    rintro base ⟨code, hcode, hbase⟩
    exact h base ⟨code, hcodes.mem_iff.mpr hcode, hbase⟩
  | place hend => exact (ModuleCode.place_paged _ _ _ _ _ h).of_ok hend
  | placeFails hend => exact (ModuleCode.place_paged _ _ _ _ _ h).of_error hend
  | discard => exact h
  | create hend =>
    exact paged_cons_of_none ((ModuleCode.create_segments ..).of_ok hend)
      ((ModuleCode.create_paged _ _ _ _ h).of_ok hend)
  | createFails hend => exact (ModuleCode.create_paged _ _ _ _ h).of_error hend
  | load hend =>
    exact paged_cons_of_none (ModuleCode.load_segments hend)
      ((ModuleCode.load_paged _ _ _ _ h).of_ok hend)
  | loadFails hend => exact (ModuleCode.load_paged _ _ _ _ h).of_error hend
  | entry _ hend =>
    have hafter := (Running.interpEntry_paged _ _ (paged_cons.mp h)).ending hend
    split at hafter
    · exact paged_cons.mpr hafter
    · exact paged_cons.mpr hafter
  | install hend =>
    have hafter := (Running.installOptimized_paged _ _ _ (paged_cons.mp h)).ending hend
    split at hafter
    · exact paged_cons.mpr hafter
    · exact paged_cons.mpr hafter
  | dispatch =>
    have hbefore := paged_cons.mp h
    exact paged_cons.mpr ⟨hbefore.own, hbefore.others⟩
  | @label engine placed codes code wanted =>
    obtain ⟨labels, hlabels⟩ := ModuleCode.exists_ensureLabels_eq code wanted
    have hbefore := paged_cons.mp h
    rw [Paged, hlabels]
    exact paged_cons.mpr ⟨hbefore.own, hbefore.others⟩
  | drop hend =>
    exact (paged_cons.mp h).others.of_inUse (congrArg Prod.snd ((Running.frugal_retire _).of_ok hend))
  | unmap => exact h

/-- Segments for entry stubs are in use by the page at all times. -/
theorem Reachable.paged (h : Reachable p) : Paged p := by
  induction h with
  | start => exact fun _ ⟨_, hcode, _⟩ => absurd hcode List.not_mem_nil
  | step _ hstep ih => exact hstep.paged ih

end Process

end CompiledCode

import CompiledCode.Proofs.Carried
import CompiledCode.Proofs.Layout
import CompiledCode.Proofs.ModuleCode.ExportStubs
import CompiledCode.Proofs.Process.Loaded
import CompiledCode.Proofs.Process.Paged

/-!
# Modules that were loaded serve their exports

The interpreter entry of an export is its eager entry, a stub that is filed for it, or a stub that is made
then. At each of these turns something could be amiss: the export, the code range of its entry, its slot
in the dispatch tables, the order of the filed stubs, the room that is claimed for a new one. None of it is
in a module that was loaded, so that the answer is an entry or a failure. All that can still go wrong is
that the tables of a new stub have offsets so large that they overflow where the stub is put, which nothing
keeps a compiler from.

Which block answers for a function depends on the number of imports. No check compares that number to the
exports of the first tier, and those of imports are not served.
-/

namespace CompiledCode

namespace Running

/-- Whether everything is in order that entry stubs of a module are made of and noted in. -/
structure Ready (s : Running) (since : Memory) (placed : List Block) (others : List ModuleCode) :
    Prop where
  inStep : s.InStep since placed others
  roomy : s.code.Roomy
  paged : s.Paged
  filed : s.code.Filed

variable {s : Running} {since : Memory} {placed : List Block} {others : List ModuleCode}
  {compiler : StubCompiler} {tier : Block} {requests : List StubRequest} {func : Nat} {entry : FuncExport}

/-- A proper compiler that is asked for stubs answers with some that can be assembled, or fails. -/
theorem compileStubs_calm (hproper : compiler.Proper) :
    (compileStubs compiler tier requests).Ensures s
      (fun stubs _ => compiler.compile tier requests = .ok stubs ∧ stubs.Assembles)
      (fun fault _ => fault.isViolation = false) := by
  exact compileStubs_ensures_of_quiet (hproper.quiet tier) fun _ _ =>
    ((callCompiler_made _ _).and (callCompiler_ensures _ _)).mono
      (fun _ _ ht => ⟨ht.1.1, hproper.assembles ht.1.1⟩) (fun _ _ ht => ht.2.1)

/-- Whether stubs that a compiler has made for some functions were put so far on in the last segment for
stubs, in whole pages, that an offset in their tables would not fit into 32 bits there. -/
def Overflows (t : Running) (compiler : StubCompiler) (funcs : List Nat) : Prop :=
  ∃ tier requests stubs segment bytes offset, requests.map StubRequest.func = funcs ∧
    compiler.compile tier requests = .ok stubs ∧ Page.roundUp stubs.code.length = .ok bytes ∧
    t.code.lazySegments.getLast? = some segment ∧ segment.length t.engine.memory = offset + bytes ∧
    0 < offset ∧ ∃ place ∈ stubs.tables.codeOffsets, UInt32.size ≤ place + offset

/-- A fault that is no violation does not come from offsets. -/
theorem calm_of_isViolation_eq_false {fault : Fault} {condition : Prop} (h : fault.isViolation = false)
    (hviolation : fault.isViolation = true) : condition :=
  absurd (h.symm.trans hviolation) Bool.false_ne_true

/-- Stubs that can be assembled are placed without a violation, as room that is claimed is whole pages, unless
an offset overflows. -/
theorem placeStubs_calm (h : s.InStep since placed others) (hpaged : s.Paged) {stubs : CompiledStubs}
    (hcompiled : compiler.compile tier requests = .ok stubs) (hassembles : stubs.Assembles) :
    (placeStubs stubs requests).Ensures s (fun _ _ => True)
      (fun fault t => fault.isViolation = true → t.Overflows compiler (requests.map (·.func))) := by
  refine placeStubs_ensures (fun _ => calm_of_isViolation_eq_false rfl) fun entries bytes _ hbytes => ?_
  refine ((stubSegment_inStep h bytes).and (stubSegment_last bytes)).mono (fun segment t ht => ?_)
    (fun _ _ hfault => calm_of_isViolation_eq_false hfault.1.1)
  obtain ⟨⟨⟨ht, -⟩, hbacks, hfits, haligned⟩, hlast⟩ := ht
  rw [ensures_onMemory]
  refine (Segment.claim_ensures ht.sound bytes).mono (fun offset claimed hclaimed => ?_)
    (fun fault m hfault => absurd hfits (Bool.eq_false_iff.mp hfault.2.1))
  obtain ⟨hkeeps, hoffset, hinUse, hroom⟩ := hclaimed
  refine ((putStubs_inStep ht hbacks ⟨hkeeps, hoffset, hinUse, hroom⟩ hbytes entries).and
    (frugal_putStubs stubs entries segment offset _)).mono (fun _ _ _ => trivial)
      (fun fault u hu hviolation => ?_)
  obtain ⟨⟨-, hoverflows, -⟩, hroom, -⟩ := hu
  have hoverflow := hoverflows (hoffset ▸ haligned hpaged) hassembles hviolation
  rw [CodeTables.overflows, Bool.and_eq_true, decide_eq_true_eq, List.any_eq_true] at hoverflow
  obtain ⟨hoffset, place, hplace, hlarge⟩ := hoverflow
  have hsegments : u.code.lazySegments = t.code.lazySegments := congrArg Prod.fst hroom
  have hlength : segment.length u.engine.memory = offset + bytes :=
    (congrFun (congrArg Prod.snd hroom) segment.base).trans hinUse
  exact ⟨tier, requests, stubs, segment, bytes, offset, rfl, hcompiled, hbytes, hsegments ▸ hlast, hlength,
    hoffset, place, hplace, of_decide_eq_true hlarge⟩

/-- What a proper compiler answers is placed without a violation unless an offset overflows. -/
theorem createStubs_calm (h : s.InStep since placed others) (hpaged : s.Paged)
    (hproper : compiler.Proper) :
    (createStubs compiler requests tier).Ensures s (fun _ _ => True)
      (fun fault t => fault.isViolation = true → t.Overflows compiler (requests.map (·.func))) := by
  refine (((compileStubs_calm hproper).and compileStubs_sameIndexes).during_of fun _ _ ht => ht).bind
    (fun stubs t ht => ?_) (fun _ _ hfault => calm_of_isViolation_eq_false hfault.1)
  obtain ⟨⟨hcompiled, hassembles⟩, hsame⟩ := ht
  have hafter : t.PagedWith fun _ => False := hsame.pagedWith ⟨hpaged, nofun⟩
  exact placeStubs_calm (h.congr hsame) hafter.own hcompiled hassembles

/-- Stubs that are made are a batch, in a block of the module at an address other than zero. -/
theorem createStubs_batch (h : s.InStep since placed others) (hroomy : s.code.Roomy) :
    (createStubs compiler requests tier).Ensures s
      (fun result t => t.code.dispatch = s.code.dispatch ∧ ∃ batch : StubBatch,
        batch.MadeBy compiler ∧ batch.requests = requests ∧ batch.entries = result.2 ∧
          t.code.blocks[result.1]? = some batch.block ∧ 0 < batch.block.segment.base)
      (fun _ _ => True) := by
  refine (createStubs_adds.and ((createStubs_segment h).and (createStubs_room h hroomy))).mono
    (fun result t ht => ?_) (fun _ _ _ => trivial)
  obtain ⟨⟨batch, -, hrequests, hentries, hindex, hadds⟩, ⟨block, hblock, hsegment⟩, htakes⟩ := ht
  obtain ⟨_, _, -, -, hcontent⟩ := hadds.content
  have hblocks : t.code.blocks = s.code.blocks ++ [batch.block] := (congrArg ModuleCode.blocks hcontent :)
  have hat : t.code.blocks[result.1]? = some batch.block := by
    rw [hblocks, hindex]
    exact List.getElem?_concat_length
  obtain rfl := Option.some.inj (hblock.symm.trans hat)
  exact ⟨(congrArg ModuleCode.dispatch hcontent :), batch, hadds.madeBy, hrequests, hentries, hat,
    (htakes.roomy hroomy).positive _ hsegment⟩

/-- A jit entry that there is can be offered to a function that has a slot. -/
theorem offerJitEntry_calm {stubs : Block} {jit : Option Nat} (hbase : 0 < stubs.segment.base)
    (hjit : ∀ index ∈ jit, ∃ range, stubs.tables.ranges[index]? = some range)
    (hfunc : func < s.code.dispatch.size) :
    (offerJitEntry func stubs jit).Ensures s (fun _ _ => True) (fun _ _ => False) := by
  cases jit with
  | none => exact (Op.ensures_pure _).mpr trivial
  | some index =>
    obtain ⟨range, hrange⟩ := hjit index rfl
    rw [offerJitEntry, Op.ensures_bind, Op.ensures_ofChecked, Block.rangeAt_eq_ok hrange]
    have htarget : stubs.addressOf range.start ≠ 0 := Nat.ne_of_gt (Nat.add_pos_left hbase _)
    refine (onDispatch_content (DispatchTables.setJitEntryIfEmpty_offered ..)).bind
      (fun _ _ _ => (Op.ensures_pure _).mpr trivial) (fun _ _ hfault => ?_)
    exact hfault.1.elim htarget (Nat.not_le_of_lt hfunc)

/-- The first stub of a function that has a slot is made, or that fails, unless an offset overflows. -/
theorem createStub_calm (h : s.Ready since placed others) (hproper : compiler.Proper) {position : Nat}
    (hvacant : searchKey (·.func) s.code.lazyExports entry.func = .vacant position)
    (hfunc : entry.func < s.code.dispatch.size) (exportIndex : Nat) :
    (createStub compiler exportIndex entry tier).Ensures s (fun _ _ => True)
      (fun fault t => fault.isViolation = true → t.Overflows compiler [entry.func]) := by
  have hpaged : s.PagedWith fun _ => False := ⟨h.paged, nofun⟩
  refine createStub_ensures (fun _ hfound => ?_)
    (fun bytes => ((grow_inStep h.inStep bytes).and (grow_paged bytes s hpaged)).mono
      (fun _ _ ht => ht) (fun _ _ hfault => calm_of_isViolation_eq_false hfault.1.1))
    (fun _ _ _ => calm_of_isViolation_eq_false rfl) fun t position address ht _ _ => ?_
  · rw [hvacant] at hfound
    contradiction
  obtain ⟨⟨hgrown, hcode⟩, hpaged⟩ := ht
  refine ((createStubs_calm hgrown hpaged.own hproper).and
    (createStubs_batch hgrown (hcode ▸ h.roomy))).mono (fun result u hu => ?_) (fun _ _ hfault => hfault.1)
  obtain ⟨index, entries⟩ := result
  obtain ⟨-, hdispatch, batch, hmade, hrequests, hentries, hat, hbase⟩ := hu
  -- The batch answers its one request, so that the entries there are code ranges of its block.
  obtain ⟨found, hfound, hfirst⟩ := hmade.entries_of_singleton hrequests
  obtain ⟨henters, hjit⟩ := hmade.first hfirst
  obtain ⟨range, hrange, -⟩ := exists_of_entryIndex? henters
  obtain rfl : entries = [found] := hentries.symm.trans hfound
  refine fileStub_ensures_of hat hrange ((offerJitEntry_calm hbase (fun index hindex => ?_)
    (hdispatch ▸ hcode ▸ hfunc)).mono (fun _ _ _ => trivial) (fun _ _ hfault => hfault.elim))
  rw [hjit] at hindex
  obtain ⟨range, hrange, -⟩ := exists_of_entryIndex? hindex
  exact ⟨range, hrange⟩

/-- Whether an export is the one that a module has for its function, with a slot for the function and with
the code range of its eager entry if it has one. -/
structure Offers (s : Running) (exportIndex : Nat) (entry : FuncExport) : Prop where
  exported : (s.code.provider entry.func).exportOf entry.func = .ok (exportIndex, entry)
  eager : ∀ index, entry.eagerEntry = some index →
    index < (s.code.provider entry.func).tables.ranges.length
  slot : entry.func < s.code.dispatch.size

variable {exportIndex : Nat}

/-- An entry of a function that is exported is found or made, or that fails, unless an offset overflows. -/
theorem findOrMakeEntry_calm (h : s.Ready since placed others) (hproper : compiler.Proper)
    (hoffers : s.Offers exportIndex entry) :
    (findOrMakeEntry compiler entry.func entry).Ensures s (fun answer _ => answer.1 = entry)
      (fun fault t => fault.isViolation = true → t.Overflows compiler [entry.func]) := by
  rw [findOrMakeEntry, Op.ensures_bind, ensures_current, Op.ensures_bind, Op.ensures_ofChecked]
  obtain ⟨address, hfound⟩ | ⟨hnone, position, hvacant⟩ := h.filed.lazyEntry_eq entry.func
  · rw [hfound]
    exact (Op.ensures_pure _).mpr rfl
  · rw [hnone]
    dsimp only
    rw [Op.ensures_bind, ensures_current, Op.ensures_bind, Op.ensures_ofChecked, hoffers.exported]
    refine ((createStub_calm h hproper hvacant hoffers.slot exportIndex).during_of
      fun _ _ _ => calm_of_isViolation_eq_false rfl).bind (fun _ _ _ => ?_) (fun _ _ hfault => hfault)
    exact (Op.ensures_pure _).mpr rfl

/-- The interpreter entry of a function that is exported is found or made, or that fails, unless an offset
overflows. -/
theorem interpEntry_calm (h : s.Ready since placed others) (hproper : compiler.Proper)
    (hoffers : s.Offers exportIndex entry) :
    (interpEntry compiler entry.func).Ensures s (fun answer _ => answer.1 = entry)
      (fun fault t => fault.isViolation = true → t.Overflows compiler [entry.func]) := by
  have hmaking := findOrMakeEntry_calm h hproper hoffers
  rw [interpEntry, Op.ensures_bind, ensures_current]
  dsimp only
  rw [Op.ensures_bind, Op.ensures_ofChecked, hoffers.exported]
  dsimp only
  split
  · rename_i index heager
    have hrange := List.getElem?_eq_getElem (hoffers.eager index heager)
    rw [Op.ensures_bind, Op.ensures_ofChecked, Block.rangeAt_eq_ok hrange]
    exact (Op.ensures_pure _).mpr rfl
  · obtain ⟨jit, hjit⟩ := DispatchTables.exists_jitEntry_eq_ok hoffers.slot
    rw [Op.ensures_bind, Op.ensures_ofChecked, hjit]
    dsimp only
    split
    · rw [Op.ensures_bind, ensures_current, Op.ensures_bind, Op.ensures_ofChecked]
      obtain ⟨address, hfound⟩ | ⟨hnone, -⟩ := h.filed.lazyEntry_eq entry.func
      · rw [hfound]
        exact (Op.ensures_pure _).mpr rfl
      · rw [hnone]
        exact hmaking
    · exact (Op.ensures_bind _ _).mpr ((Op.ensures_pure _).mpr hmaking)

/-- A request for the entry of a function without an export is a violation, and changes nothing. -/
theorem interpEntry_eq_error {violation : Violation}
    (h : (s.code.provider func).exportOf func = .error violation) :
    interpEntry compiler func s = .error (.violation violation) s := by
  rw [interpEntry]
  change (Op.ofChecked ((s.code.provider func).exportOf func) >>= _) s = _
  rw [h]
  rfl

/-- Whether an export is served: it is looked up, and a request for its interpreter entry is answered
with the export and an entry or fails, if only the compiler is proper and makes no stub for which an
offset overflows. -/
structure Serves (s : Running) (entry : FuncExport) : Prop where
  exported : s.code.exportOf entry.func = .ok entry
  enters : ∀ compiler : StubCompiler, compiler.Proper →
    (interpEntry compiler entry.func).Ensures s (fun answer _ => answer.1 = entry)
      (fun fault t => fault.isViolation = true → t.Overflows compiler [entry.func])

/-- Whether requests for a function are violations, as it is not exported. -/
structure Denies (s : Running) (func : Nat) : Prop where
  exported : s.code.exportOf func = .error (.notExported func)
  enters : ∀ compiler, interpEntry compiler func s = .error (.violation (.notExported func)) s

end Running

/-- Whether the code of a module has the imports and the blocks of an image, and dispatch slots for all its
functions. -/
structure ModuleCode.Carries (code : ModuleCode) (image : Image) : Prop where
  checked : image.Checked
  imports : code.imports = image.imports
  sharedStubs : code.sharedStubs.Carries image.sharedStubs
  tier1 : code.tier1.Carries image.tier
  slots : code.dispatch.size = image.funcCount

namespace Process

variable {image : Image} {p q : Process} {code code' : ModuleCode} {codes : List ModuleCode}

/-- A module that was loaded has the imports and the blocks of the image, whatever has happened since. -/
theorem LoadedFrom.carries (h : LoadedFrom image p code) : code.Carries image := by
  obtain ⟨settings, symbols, bytes, q, start, after, hreach, hread, hend, hbecomes, hslots⟩ := h.exists_load
  have hchecked := Image.checked_of_fault? (ModuleCode.fault?_of_load hread hend)
  obtain ⟨other, sharedStubs, tier1, middle, last, hother, hshared, htier1, hcreate⟩ :=
    ModuleCode.load_eq_ok hend
  obtain rfl := Except.ok.inj (hread.symm.trans hother)
  obtain ⟨hmiddle, hbears, -⟩ := (ModuleCode.place_inStep hreach.inStep ..).of_ok hshared
  obtain ⟨-, hbears', -⟩ := (ModuleCode.place_inStep hmiddle ..).of_ok htier1
  have hfrom := (ModuleCode.create_content ..).of_ok hcreate
  obtain ⟨-, hbound, hbound'⟩ := hfrom.blocks
  have hcarries : start.sharedStubs.Carries image.sharedStubs := by
    obtain ⟨_, _, hsame⟩ := hbound
    rw [hsame]
    exact ⟨hbears.kind, hbears.tables, hbears.start, hbears.stop, hbears.stop_le⟩
  have hcarries' : start.tier1.Carries image.tier := by
    obtain ⟨_, _, hsame⟩ := hbound'
    rw [hsame]
    exact ⟨hbears'.kind, hbears'.tables, hbears'.start, hbears'.stop, hbears'.stop_le⟩
  have hsize := DispatchTables.size_of_ofBlocks hfrom.ofBlocks_eq
  rw [hcarries.tables, hcarries'.tables] at hsize
  obtain ⟨_, _, _, _, hcontent⟩ := hfrom.content
  exact
    { checked := hchecked
      imports := hbecomes.imports.trans (congrArg ModuleCode.imports hcontent :)
      sharedStubs := hbecomes.sharedStubs ▸ hcarries
      tier1 := hbecomes.tier1 ▸ hcarries'
      slots := hslots.size.trans hsize }

/-- The exports of a module that were made on demand are filed, whatever happens to it. -/
theorem Step.filed (hstep : Step p q) (hp : p.codes = code :: codes) (hq : q.codes = code' :: codes)
    (h : code.Filed) : code'.Filed := by
  cases hstep.affects hp hq with
  | nothing => exact h
  | dispatch | label => exact ⟨h.sorted, h.entries⟩
  | entry hend hcalm =>
    exact h.outcome ((ModuleCall.interpEntry_outcome _ _ _).ending_of_calm hend hcalm)
  | @install engine _ _ _ compiler plan compiled _ _ hend hcalm =>
    have hcall := ModuleCall.run_outcome (.install compiler plan compiled) { engine, code }
    exact h.outcome (hcall.ending_of_calm hend hcalm)

theorem LoadedFrom.filed (h : LoadedFrom image p code) : code.Filed := by
  induction h with
  | load _ _ hend =>
    obtain ⟨_, _, _, _, _, -, -, -, hcreate⟩ := ModuleCode.load_eq_ok hend
    exact ModuleCode.filed_of_nil ((ModuleCode.create_ensures ..).of_ok hcreate).2
  | own _ hstep hp hq _ ih => exact hstep.filed hp hq ih
  | other _ _ _ ih => exact ih

/-- A module that was loaded is ready for entry stubs at any time. -/
theorem LoadedFrom.ready (h : LoadedFrom image p code) :
    ∃ others, Running.Ready { engine := p.engine, code } p.engine.memory p.placed others := by
  obtain ⟨hreach, hcode⟩ := h.reachable
  obtain ⟨before, after, hcodes⟩ := List.append_of_mem hcode
  have hperm : p.codes.Perm (code :: (before ++ after)) := hcodes ▸ List.perm_middle
  have hfirst : Reachable { p with codes := code :: (before ++ after) } :=
    hreach.step (.reorder (.refl _) hperm)
  exact ⟨before ++ after,
    { inStep := hfirst.inStep
      roomy := hreach.roomy code hcode
      paged := (paged_cons.mp hfirst.paged).own
      filed := h.filed }⟩

/-- An export is served if the block that provides its function carries it. -/
theorem LoadedFrom.serves (h : LoadedFrom image p code) {compiled : CompiledBlock} {entry : FuncExport}
    (hcarries : (code.provider entry.func).Carries compiled) (hchecked : compiled.Checked image.funcCount)
    (hentry : entry ∈ compiled.tables.exports) : Running.Serves { engine := p.engine, code } entry := by
  obtain ⟨others, hready⟩ := h.ready
  obtain ⟨index, hexport⟩ := hcarries.exists_exportOf_eq hchecked hentry
  have hnamed : entry.func ∈ compiled.tables.namedFuncs :=
    List.mem_append_right _ (List.mem_map_of_mem hentry)
  have hoffers : Running.Offers { engine := p.engine, code } index entry :=
    { exported := hexport
      eager := fun place hplace => by
        rw [hcarries.tables]
        exact CodeTables.lt_of_boundsFault? hchecked.inBounds hentry hplace
      slot := lt_of_lt_of_eq (hchecked.named _ hnamed) h.carries.slots.symm }
  exact ⟨by rw [ModuleCode.exportOf, hexport]; rfl,
    fun compiler hproper => Running.interpEntry_calm hready hproper hoffers⟩

/-- The function of an import that the shared stubs do not export is not exported. -/
theorem LoadedFrom.denies (h : LoadedFrom image p code) {func : Nat}
    (hfunc : func < image.imports.length)
    (hnone : ∀ entry ∈ image.sharedStubs.tables.exports, entry.func ≠ func) :
    Running.Denies { engine := p.engine, code } func := by
  have hcarries := h.carries
  have hprovider : code.provider func = code.sharedStubs := by
    rw [ModuleCode.provider, hcarries.imports, if_pos hfunc]
  have herror : (code.provider func).exportOf func = .error (.notExported func) := by
    rw [hprovider]
    exact hcarries.sharedStubs.exportOf_eq_error hcarries.checked.sharedStubs hnone
  exact ⟨by rw [ModuleCode.exportOf, herror]; rfl, fun _ => Running.interpEntry_eq_error herror⟩

/-- The first tier of a module that was loaded can be listed, whatever is selected. -/
theorem LoadedFrom.exists_listing_eq (h : LoadedFrom image p code) (kinds : RangeKinds) :
    ∃ tier lines, code.stableTier = .ok tier ∧ code.listing p.engine.memory tier kinds = .ok lines := by
  have hcarries := h.carries
  obtain ⟨tier, htier⟩ := Option.isSome_iff_exists.mp hcarries.checked.tierKind
  have hstable : code.tier1.tier = .ok tier := by
    rw [Block.tier, hcarries.tier1.kind, htier]
  obtain ⟨lines, hlines⟩ :=
    hcarries.tier1.exists_listing_eq hcarries.checked.tier p.engine.memory kinds
  refine ⟨tier, lines, hstable, ?_⟩
  rw [ModuleCode.listing, ModuleCode.tierBlock, hstable]
  change (if tier = tier then Except.ok code.tier1 else _) >>= _ = _
  rw [if_pos rfl]
  exact hlines

/-- A module that was loaded serves the exports of the image: those of the first tier as long as there
is no better tier, and those of imports from the shared stubs. To serve an export is to have it
looked up, and to answer a request for its interpreter entry with the export and an entry, or else to
fail, whatever failures or stubs there are from the compiler, unless the tables of the stub that it makes
overflow where the stub is put. Only an import is denied, if the shared
stubs do not export it. The first tier can be listed, and lookups of any address find what is there. -/
theorem loaded_modules_serve_exports (h : LoadedFrom image p code) :
    (code.hasOptimized = false → ∀ entry ∈ image.tier.tables.exports,
      image.imports.length ≤ entry.func → Running.Serves { engine := p.engine, code } entry) ∧
    (∀ entry ∈ image.sharedStubs.tables.exports,
      entry.func < image.imports.length → Running.Serves { engine := p.engine, code } entry) ∧
    (∀ func < image.imports.length,
      (∀ entry ∈ image.sharedStubs.tables.exports, entry.func ≠ func) →
        Running.Denies { engine := p.engine, code } func) ∧
    (∀ kinds, ∃ tier lines, code.stableTier = .ok tier ∧
      code.listing p.engine.memory tier kinds = .ok lines) ∧
    (∀ pc block, code.blockAt? pc = some block ↔ block ∈ code.blocks ∧ block.contains pc = true) ∧
    code.sharedStubs.Locates ∧ code.tier1.Locates := by
  have hcarries := h.carries
  have hchecked := hcarries.checked
  obtain ⟨hreach, hcode⟩ := h.reachable
  refine ⟨fun hnone entry hentry hown => ?_, fun entry hentry himport => ?_,
    fun func hfunc hmissing => h.denies hfunc hmissing, h.exists_listing_eq,
    hreach.inStep.blockAt?_eq_some_iff hcode, hcarries.sharedStubs.locates hchecked.sharedStubs,
    hcarries.tier1.locates hchecked.tier⟩
  case refine_1 =>
    have hprovider : code.provider entry.func = code.tier1 := by
      rw [ModuleCode.provider, hcarries.imports, if_neg (Nat.not_lt_of_le hown)]
      rw [ModuleCode.hasOptimized, Option.isSome_eq_false_iff, Option.isNone_iff_eq_none] at hnone
      rw [hnone, Option.getD_none]
    exact h.serves (hprovider ▸ hcarries.tier1) hchecked.tier hentry
  case refine_2 =>
    have hprovider : code.provider entry.func = code.sharedStubs := by
      rw [ModuleCode.provider, hcarries.imports, if_pos himport]
    exact h.serves (hprovider ▸ hcarries.sharedStubs) hchecked.sharedStubs hentry

end Process

/-- A saved module with two imports, of which the first is exported, and a function that is, too. -/
def Image.reexporting : Image :=
  { Image.oneFunction with
    imports := [5, 5]
    sharedStubs := { CompiledBlock.noStubs with
      tables := { exports := [{ func := 0, type := 5, eagerEntry := none }] } }
    tier := { CompiledBlock.oneFunction with
      tables :=
        { funcs := { first := 2, stop := 3 }
          ranges := [{ kind := .function, func := some 2, start := 0, stop := 9, tierEntry := 8 }]
          exports := [{ func := 2, type := 0, eagerEntry := none }] } } }

/-- A saved module whose only function is at the index of an import. -/
def Image.misplaced : Image := { Image.oneFunction with imports := [5] }

/-- A module that exports an import can be loaded, and it makes an entry for its function. -/
theorem load_reexporting :
    ∃ code engine address t,
      ModuleCode.load {} .empty Image.reexporting.toBytes {} = .ok code engine ∧
      code.hasOptimized = false ∧
      Running.interpEntry ({} : StubLayout).compiler 2 { engine, code } =
        .ok ({ func := 2, type := 0, eagerEntry := none }, address) t := by
  have hends : (ModuleCode.load {} .empty Image.reexporting.toBytes).succeeds {}
      (fun code engine => decide (code.hasOptimized = false) &&
        (Running.interpEntry ({} : StubLayout).compiler 2).succeeds { engine, code }
          (fun answer _ => decide (answer.1 = { func := 2, type := 0, eagerEntry := none }))) =
      true := by decide +kernel
  obtain ⟨code, engine, hload, htest⟩ := Op.exists_of_succeeds hends
  rw [Bool.and_eq_true] at htest
  obtain ⟨⟨entry, address⟩, t, hentry, hanswer⟩ := Op.exists_of_succeeds htest.2
  obtain rfl := of_decide_eq_true hanswer
  exact ⟨code, engine, address, t, hload, of_decide_eq_true htest.1, hentry⟩

namespace Process

/-- A module that exports an import serves that export and the one of its function, and denies its
other import. -/
theorem loaded_modules_serve_exports_once_loaded :
    ∃ (p : Process) (code : ModuleCode), LoadedFrom .reexporting p code ∧
      Running.Serves { engine := p.engine, code } { func := 2, type := 0, eagerEntry := none } ∧
      Running.Serves { engine := p.engine, code } { func := 0, type := 5, eagerEntry := none } ∧
      Running.Denies { engine := p.engine, code } 1 ∧
      ({} : StubLayout).compiler.Proper ∧
      ∃ address t, Running.interpEntry ({} : StubLayout).compiler 2 { engine := p.engine, code } =
        .ok ({ func := 2, type := 0, eagerEntry := none }, address) t := by
  obtain ⟨code, engine, address, t, hload, hnone, hentry⟩ := load_reexporting
  have hloaded : LoadedFrom .reexporting { engine, codes := [code] } code :=
    reachable_start.loadedFrom hload
  obtain ⟨hown, himports, hdenies, -⟩ := loaded_modules_serve_exports hloaded
  exact ⟨_, code, hloaded, hown hnone _ (by decide) (by decide), himports _ (by decide) (by decide),
    hdenies 1 (by decide) (by decide), StubLayout.proper rfl rfl, address, t, hentry⟩

/-- A module is accepted although its only function is at the index of an import. It lists the function
among the exports of its first tier, and denies it. -/
theorem misplaced_exports_are_denied :
    ({} : StubLayout).compiler.Proper ∧
    ∃ code engine, ModuleCode.load {} .empty Image.misplaced.toBytes {} = .ok code engine ∧
      code.hasOptimized = false ∧
      code.tier1.tables.exports = [{ func := 0, type := 0, eagerEntry := none }] ∧
      code.exportOf 0 = .error (.notExported 0) ∧
      Running.interpEntry ({} : StubLayout).compiler 0 { engine, code } =
        .error (.violation (.notExported 0)) { engine, code } := by
  have hends : (ModuleCode.load {} .empty Image.misplaced.toBytes).succeeds {}
      (fun code _ => decide (code.hasOptimized = false ∧
        code.tier1.tables.exports = [{ func := 0, type := 0, eagerEntry := none }])) = true := by
    decide +kernel
  obtain ⟨code, engine, hload, htest⟩ := Op.exists_of_succeeds hends
  obtain ⟨hnone, hexports⟩ := of_decide_eq_true htest
  have hdenied : Running.Denies { engine, code } 0 :=
    (reachable_start.loadedFrom hload).denies (by decide) (by decide)
  exact ⟨StubLayout.proper rfl rfl, code, engine, hload, hnone, hexports, hdenied.exported,
    hdenied.enters _⟩

end Process

end CompiledCode

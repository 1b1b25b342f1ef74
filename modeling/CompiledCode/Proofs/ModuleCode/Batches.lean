import CompiledCode.Proofs.ModuleCode.Failure
import CompiledCode.Proofs.ModuleCode.Slots

/-!
# What calls that succeed add to the code of a module

Entry stubs are compiled in batches, and each batch is a block of its own. The first stub of a
function is a batch by itself, and an install makes a batch for all functions that have a stub for the
first tier. In both cases every request of the batch gives the address at which the function is
called in the block that provides it, and every export is pointed at the first interpreter entry
that the batch has for its function.

The compiler is any one, whatever it asks for itself.
-/

namespace CompiledCode

/-- Entry stubs that were compiled at once, and the block that they were put into. -/
structure StubBatch where
  /-- The block that the stubs call into. -/
  tier : Block
  /-- The functions that stubs were asked for. -/
  requests : List StubRequest
  /-- What was compiled. -/
  stubs : CompiledStubs
  /-- The entries of the functions, in the order of the requests. -/
  entries : List StubEntries
  /-- The block that holds the stubs. -/
  block : Block

namespace StubBatch

/-- Whether a batch is what a compiler makes of its requests, with the entries of all of them. -/
structure MadeBy (batch : StubBatch) (compiler : StubCompiler) : Prop where
  compiled : compiler.compile batch.tier batch.requests = .ok batch.stubs
  entries : batch.stubs.entriesFor batch.requests = .ok batch.entries
  houses : batch.block.Houses batch.stubs

/-- Whether a note is that of the call in which a batch was compiled. -/
structure NotedAs (batch : StubBatch) (note : StubCall) : Prop where
  kind : note.kind = batch.tier.kind
  requests : note.requests = batch.requests

/-- Whether a batch was asked for a stub that calls a function at its address in the block that the
stubs call into. -/
def Requests (batch : StubBatch) (func : Nat) : Prop :=
  ∃ request ∈ batch.requests,
    request.func = func ∧ batch.tier.funcEntry? func = some request.callee

/-- Whether the code range at an index is the first interpreter entry that a batch has for a
function. -/
def EntersAt (batch : StubBatch) (func rangeIndex : Nat) : Prop :=
  entryIndex? .interpEntry func batch.block.tables.ranges = some rangeIndex

variable {batch : StubBatch} {compiler : StubCompiler}

/-- The entries of a function in the stubs are the first ones in the block as well. -/
theorem MadeBy.first (h : batch.MadeBy compiler) {func : Nat} {found : StubEntries}
    (hfound : batch.stubs.entries? func = some found) :
    batch.EntersAt func found.interp ∧
      found.jit = entryIndex? .jitEntry func batch.block.tables.ranges := by
  rw [EntersAt, h.houses.entryIndex?_eq, h.houses.entryIndex?_eq]
  exact CompiledStubs.entries?_eq_some hfound

/-- The entries of a batch are the first ones of the functions that it was asked for, one by one. -/
theorem MadeBy.entering (h : batch.MadeBy compiler)
    (hcallees : ∀ request ∈ batch.requests,
      batch.tier.funcEntry? request.func = some request.callee) :
    List.Forall₂ (fun func found => batch.Requests func ∧ batch.EntersAt func found.interp)
      (batch.requests.map (·.func)) batch.entries := by
  rw [List.forall₂_map_left_iff, List.forall₂_and_left]
  refine ⟨fun request hin => ⟨request, hin, rfl, hcallees request hin⟩, ?_⟩
  exact (CompiledStubs.entriesFor_eq_ok h.entries).imp fun _ _ hfound => (h.first hfound).1

/-- A batch of one stub has the entries of one function. -/
theorem MadeBy.entries_of_singleton (h : batch.MadeBy compiler) {request : StubRequest}
    (hrequests : batch.requests = [request]) :
    ∃ found, batch.entries = [found] ∧ batch.stubs.entries? request.func = some found := by
  have hentries := CompiledStubs.entriesFor_eq_ok h.entries
  rw [hrequests] at hentries
  obtain ⟨found, rest, hfound, hrest, hcons⟩ := List.forall₂_cons_left_iff.mp hentries
  obtain rfl := List.forall₂_nil_left_iff.mp hrest
  exact ⟨found, hcons, hfound⟩

end StubBatch

/-- Whether an export is what becomes of another one when stubs for a new tier are made, if any are. -/
def LazyExport.MovedTo (tier1Kind : BlockKind) (index : Nat) (made : Option StubBatch)
    (before after : LazyExport) : Prop :=
  if before.kind = tier1Kind then
    ∃ batch ∈ made, ∃ rangeIndex, batch.Requests before.func ∧
      batch.EntersAt before.func rangeIndex ∧
      after = { before with blockIndex := index, rangeIndex, kind := batch.tier.kind }
  else after = before

/-- An export whose stub is made anew is for the same function. -/
theorem LazyExport.MovedTo.func_eq {tier1Kind : BlockKind} {index : Nat} {made : Option StubBatch}
    {before after : LazyExport} (h : before.MovedTo tier1Kind index made after) :
    after.func = before.func := by
  rw [MovedTo] at h
  split at h
  · obtain ⟨_, _, _, _, _, rfl⟩ := h
    rfl
  · rw [h]

/-- Exports of first-tier functions move to a batch that was made of requests for these functions. -/
theorem StubBatch.MadeBy.movedTo {batch : StubBatch} {compiler : StubCompiler}
    (h : batch.MadeBy compiler) {tier1Kind : BlockKind} {exports : List LazyExport}
    (hfuncs : batch.requests.map (·.func) = upgradedFuncs tier1Kind exports)
    (hcallees : ∀ request ∈ batch.requests,
      batch.tier.funcEntry? request.func = some request.callee) (index : Nat) :
    List.Forall₂ (LazyExport.MovedTo tier1Kind index (some batch)) exports
      (Running.repoint tier1Kind batch.tier.kind index exports batch.entries) := by
  have hentering := h.entering hcallees
  rw [hfuncs] at hentering
  refine (Running.repoint_forall₂ hentering).imp fun before after hmoved => ?_
  rw [LazyExport.MovedTo]
  split at hmoved
  · rename_i hkind
    obtain ⟨found, ⟨hasked, henters⟩, rfl⟩ := hmoved
    rw [if_pos hkind]
    exact ⟨batch, rfl, found.interp, hasked, henters, rfl⟩
  · rename_i hkind
    rw [if_neg hkind]
    exact hmoved

namespace ModuleCode

/-- Whether the code of a module has one more block, which holds a batch of stubs, and a note. -/
structure AddsBatch (before : ModuleCode) (compiler : StubCompiler) (batch : StubBatch)
    (after : ModuleCode) : Prop where
  madeBy : batch.MadeBy compiler
  content : ∃ note tier2, batch.NotedAs note ∧ compiler.MayHaveAsked before.tier2 tier2 ∧
    after.content = { before.content with
      calls := before.calls ++ [note], tier2, blocks := before.blocks ++ [batch.block] }

/-- Whether the code of a module has the first stub of a function, in a batch of its own. -/
structure AddsStub (before : ModuleCode) (compiler : StubCompiler) (func : Nat) (batch : StubBatch)
    (after : ModuleCode) : Prop where
  madeBy : batch.MadeBy compiler
  tier : batch.tier = before.provider func
  requests : batch.Requests func
  exports : ∃ position rangeIndex, searchKey (·.func) before.lazyExports func = .vacant position ∧
    batch.EntersAt func rangeIndex ∧
    after.lazyExports = before.lazyExports.insertIdx position
      { func, blockIndex := before.blocks.length, rangeIndex, kind := batch.tier.kind }
  offered : before.dispatch.Offered batch.block.JitEntryAt after.dispatch
  content : ∃ note tier2, batch.NotedAs note ∧ compiler.MayHaveAsked before.tier2 tier2 ∧
    after.content = { before.content with
      calls := before.calls ++ [note], tier2, blocks := before.blocks ++ [batch.block]
      lazyExports := after.lazyExports, dispatch := after.dispatch }

/-- Whether the stubs for the first tier have been made anew for a tier, in a batch if there are any. -/
structure AddsUpgrade (before : ModuleCode) (compiler : StubCompiler) (tier2 : Block)
    (made : Option StubBatch) (after : ModuleCode) : Prop where
  madeBy : ∀ batch ∈ made, batch.MadeBy compiler ∧ batch.tier = tier2
  funcs : ∀ batch ∈ made,
    batch.requests.map (·.func) = upgradedFuncs before.tier1.kind before.lazyExports
  noted : ∀ batch ∈ made, ∃ note, batch.NotedAs note ∧ after.calls = before.calls ++ [note]
  exports : List.Forall₂ (LazyExport.MovedTo before.tier1.kind before.blocks.length made)
    before.lazyExports after.lazyExports
  content : ∃ tier2, compiler.MayHaveAsked before.tier2 tier2 ∧
    after.content = { before.content with
      calls := after.calls, tier2, blocks := before.blocks ++ (made.map (·.block)).toList
      lazyExports := after.lazyExports }

/-- Whether the code of a module has a tier that was compiled, and new stubs for it if there are any. -/
structure AddsTier (before : ModuleCode) (compiler : StubCompiler) (compiled : CompiledBlock)
    (tier2 : Block) (made : Option StubBatch) (after : ModuleCode) : Prop where
  kind : tier2.kind = compiled.kind
  covers : tier2.Covers compiled
  tables : tier2.tables = compiled.tables
  madeBy : ∀ batch ∈ made, batch.MadeBy compiler ∧ batch.tier = tier2
  noted : ∀ batch ∈ made, ∃ note, batch.NotedAs note ∧ after.calls = before.calls ++ [note]
  exports : List.Forall₂ (LazyExport.MovedTo before.tier1.kind (before.blocks.length + 1) made)
    before.lazyExports after.lazyExports
  ledTo : before.dispatch.LedTo tier2 tier2.tables.ranges after.dispatch
  jitGrown : before.dispatch.JitGrown
    (Block.JitEntryIn (tier2 :: (made.map (·.block)).toList)) after.dispatch
  content : after.content = { before.content with
    calls := after.calls, tier2 := .published tier2
    blocks := before.blocks ++ tier2 :: (made.map (·.block)).toList
    lazyExports := after.lazyExports, dispatch := after.dispatch }

variable {before built upgraded after : ModuleCode} {compiler : StubCompiler} {tier2 : Block}
  {made : Option StubBatch}

/-- If no export is of a first-tier function, no stubs have to be made anew. -/
theorem addsUpgrade_none (hnone : ∀ lazyExport ∈ before.lazyExports,
    lazyExport.kind ≠ before.tier1.kind) : before.AddsUpgrade compiler tier2 none before where
  madeBy _ hmade := absurd hmade (Option.not_mem_none _)
  funcs _ hmade := absurd hmade (Option.not_mem_none _)
  noted _ hmade := absurd hmade (Option.not_mem_none _)
  exports := List.forall₂_same.mpr fun lazyExport hmem => by
    rw [LazyExport.MovedTo, if_neg (hnone lazyExport hmem)]
  content := ⟨_, .inl rfl, by simp [content]⟩

/-- The block of stubs that were made anew is the one at the end. -/
theorem AddsUpgrade.stubBlock_eq (h : built.AddsUpgrade compiler tier2 made upgraded) :
    ((made.map fun _ => built.blocks.length).bind (upgraded.blocks[·]?)).toList =
      (made.map (·.block)).toList := by
  obtain ⟨_, -, hcontent⟩ := h.content
  have hblocks : upgraded.blocks = built.blocks ++ (made.map (·.block)).toList :=
    (congrArg ModuleCode.blocks hcontent :)
  cases made with
  | none => rfl
  | some batch =>
    rw [Option.map_some, Option.bind_some, hblocks, Option.map_some, Option.toList_some,
      List.getElem?_concat_length]
    rfl

/-- A tier is there once it is a block of the module, its stubs have been made, and calls have been led
to it. -/
theorem AddsUpgrade.addsTier {compiled : CompiledBlock} {dispatch : DispatchTables}
    (h : built.AddsUpgrade compiler tier2 made upgraded) (hkind : tier2.kind = compiled.kind)
    (hcovers : tier2.Covers compiled) (htables : tier2.tables = compiled.tables)
    (hbuilt : built.content = before.content.withBlock tier2)
    (hledTo : upgraded.dispatch.LedTo tier2 tier2.tables.ranges dispatch)
    (hjitGrown : upgraded.dispatch.JitGrown
      (Block.JitEntryIn (tier2 :: (made.map (·.block)).toList)) dispatch)
    (hafter : after.content =
      (upgraded.content.withTier2 (.published tier2)).withDispatch dispatch) :
    before.AddsTier compiler compiled tier2 made after := by
  obtain ⟨now, -, hupgraded⟩ := h.content
  have hcalls : built.calls = before.calls := (congrArg ModuleCode.calls hbuilt :)
  have htier1 : built.tier1 = before.tier1 := (congrArg ModuleCode.tier1 hbuilt :)
  have hblocks : built.blocks = before.blocks ++ [tier2] := (congrArg ModuleCode.blocks hbuilt :)
  have hexports : built.lazyExports = before.lazyExports := (congrArg ModuleCode.lazyExports hbuilt :)
  have hfirst : upgraded.dispatch = before.dispatch :=
    (congrArg ModuleCode.dispatch hupgraded :).trans (congrArg ModuleCode.dispatch hbuilt :)
  have hnotes : after.calls = upgraded.calls := (congrArg ModuleCode.calls hafter :)
  have hmoved : after.lazyExports = upgraded.lazyExports := (congrArg ModuleCode.lazyExports hafter :)
  obtain rfl : after.dispatch = dispatch := (congrArg ModuleCode.dispatch hafter :)
  exact
    { kind := hkind
      covers := hcovers
      tables := htables
      madeBy := h.madeBy
      noted := by
        rw [hnotes, ← hcalls]
        exact h.noted
      exports := by
        have hupgrade := h.exports
        rwa [hblocks, List.length_append, List.length_singleton, htier1, hexports, ← hmoved] at hupgrade
      ledTo := hfirst ▸ hledTo
      jitGrown := hfirst ▸ hjitGrown
      content := by
        rw [hafter, hupgraded, hbuilt, hnotes, hmoved]
        simp [withBlock, withDispatch, withTier2, hblocks] }

end ModuleCode

namespace Running

variable {s : Running} {compiler : StubCompiler} {tier : Block} {requests : List StubRequest}

/-- A call of the compiler answers what the compiler makes, and leaves a note of the requests. -/
theorem callCompiler_made (sawOptimized : Bool) (install : Option (Option Failure)) :
    (callCompiler compiler tier requests sawOptimized install).Ensures s
      (fun stubs t => compiler.compile tier requests = .ok stubs ∧
        t.code = s.code.withCall { kind := tier.kind, sawOptimized, requests, install })
      (fun _ _ => True) := by
  rw [callCompiler, Op.ensures_bind, ensures_change]
  cases compiler.compile tier requests with
  | ok stubs => exact (Op.ensures_pure _).mpr ⟨rfl, rfl⟩
  | error failure => exact (Op.ensures_throw _).mpr trivial

/-- Whether or not the compiler asks for an install, it is its stubs that are answered. -/
theorem compileStubs_made :
    (compileStubs compiler tier requests).Ensures s
      (fun stubs t => compiler.compile tier requests = .ok stubs ∧
        ∃ note : StubCall, note.kind = tier.kind ∧ note.requests = requests ∧
          ∃ tier2, compiler.MayHaveAsked s.code.tier2 tier2 ∧
            t.code = { s.code with calls := s.code.calls ++ [note], tier2 })
      (fun _ _ => True) := by
  refine compileStubs_ensures (fun _ _ _ => trivial) fun _ _ tier2 hasked => ?_
  have hmarked : compiler.MayHaveAsked s.code.tier2 tier2 :=
    hasked.imp_right fun ⟨hasks, habsent, hbuilding⟩ => ⟨habsent, hbuilding, tier, hasks⟩
  exact (callCompiler_made _ _).mono (fun _ _ ht => ⟨ht.1, _, rfl, rfl, tier2, hmarked, ht.2⟩)
    (fun _ _ h => h)

/-- Stubs that are made are a batch for the block and the requests. -/
theorem createStubs_adds :
    (createStubs compiler requests tier).Ensures s
      (fun result t => ∃ batch : StubBatch, batch.tier = tier ∧ batch.requests = requests ∧
        batch.entries = result.2 ∧ result.1 = s.code.blocks.length ∧
        s.code.AddsBatch compiler batch t.code)
      (fun _ _ => True) := by
  refine compileStubs_made.during.bind (fun stubs t ht => ?_) (fun _ _ _ => trivial)
  obtain ⟨hcompiled, note, hkind, hrequests, tier2, hasked, ht⟩ := ht
  refine (placeStubs_content stubs).mono (fun result u hu => ?_) (fun _ _ _ => trivial)
  obtain ⟨block, hhouses, hentries, hindex, hu⟩ := hu
  rw [ht] at hindex hu
  let batch : StubBatch := { tier, requests, stubs, entries := result.2, block }
  exact ⟨batch, rfl, rfl, rfl, hindex,
    { madeBy := ⟨hcompiled, hentries, hhouses⟩
      content := ⟨note, tier2, ⟨hkind, hrequests⟩, hasked, hu⟩ }⟩

/-- Offering a jit entry of a block fills a slot that was empty, if any. -/
theorem offerJitEntry_offered {func : Nat} {stubs : Block} {jit : Option Nat}
    (hjit : ∀ index ∈ jit, ∃ range, stubs.tables.ranges[index]? = some range ∧
      range.kind = .jitEntry ∧ range.func = some func) :
    (offerJitEntry func stubs jit).Ensures s
      (fun _ t => s.code.dispatch.Offered stubs.JitEntryAt t.code.dispatch) (fun _ _ => True) := by
  cases jit with
  | none => exact (Op.ensures_pure _).mpr (.refl _ _)
  | some index =>
    obtain ⟨range, hrange, hkind, hfunc⟩ := hjit index rfl
    rw [offerJitEntry, Op.ensures_bind, Op.ensures_ofChecked, Block.rangeAt_eq_ok hrange]
    refine (onDispatch_content (DispatchTables.setJitEntryIfEmpty_offered ..)).bind
      (fun _ t ht => (Op.ensures_pure _).mpr ?_) (fun _ _ _ => trivial)
    exact .of_range (List.mem_of_getElem? hrange) hkind hfunc ht.1.2.2

/-- The first stub of a function is a batch of its own. -/
theorem createStub_adds {exportIndex : Nat} {entry : FuncExport}
    (htier : tier = s.code.provider entry.func) :
    (createStub compiler exportIndex entry tier).Ensures s
      (fun _ t => ∃ batch, s.code.AddsStub compiler entry.func batch t.code)
      (fun _ _ => True) := by
  refine createStub_ensures (motive := fun t => t.code = s.code) (fun _ _ => trivial)
    (fun _ => (onMemory_code _).mono (fun _ _ h => h) (fun _ _ _ => trivial)) (fun _ _ _ => trivial)
    fun t position address ht hvacant hcallee => ?_
  refine createStubs_adds.mono (fun result u hu => ?_) (fun _ _ _ => trivial)
  obtain ⟨index, entries⟩ := result
  obtain ⟨batch, rfl, hrequests, hentries, hindex, hmade, note, tier2, hnoted, hasked, hu⟩ := hu
  obtain ⟨found, hfound, hfirst⟩ := hmade.entries_of_singleton hrequests
  obtain ⟨henters, hjit⟩ := hmade.first hfirst
  obtain ⟨range, hrange, -⟩ := exists_of_entryIndex? henters
  rw [ht] at hindex hasked hu
  obtain rfl : entries = [found] := hentries.symm.trans hfound
  obtain rfl : index = s.code.blocks.length := hindex
  have hblocks : u.code.blocks = s.code.blocks ++ [batch.block] := (congrArg ModuleCode.blocks hu :)
  have hexports : u.code.lazyExports = s.code.lazyExports := (congrArg ModuleCode.lazyExports hu :)
  have hdispatch : u.code.dispatch = s.code.dispatch := (congrArg ModuleCode.dispatch hu :)
  have hat : u.code.blocks[s.code.blocks.length]? = some batch.block := by
    rw [hblocks, List.getElem?_concat_length]
  refine fileStub_ensures_of hat hrange ?_
  rw [hexports]
  refine ((offerJitEntry_offered ?_).and (offerJitEntry_content ..)).mono (fun _ v hv => ?_)
    (fun _ _ _ => trivial)
  · intro index hmem
    rw [hjit] at hmem
    exact exists_of_entryIndex? hmem
  obtain ⟨hoffered, hv⟩ := hv
  have hstub : v.code.lazyExports = s.code.lazyExports.insertIdx position
      { func := entry.func, blockIndex := s.code.blocks.length, rangeIndex := found.interp
        kind := batch.tier.kind } := (congrArg ModuleCode.lazyExports hv :)
  exact ⟨batch,
    { madeBy := hmade
      tier := htier
      requests := ⟨_, hrequests ▸ List.mem_cons_self, rfl, funcEntry?_of_callee hcallee⟩
      exports := ⟨position, found.interp, hvacant, henters, hstub⟩
      offered := hdispatch ▸ hoffered
      content := by
        refine ⟨note, tier2, hnoted, hasked, ?_⟩
        rw [hv, hstub, ModuleCode.content_withExports, hu]
        rfl }⟩

/-- The first stub of a function is found, or is a batch of its own. -/
theorem interpEntry_adds (func : Nat) :
    (interpEntry compiler func).Ensures s
      (fun _ t => t = s ∨ ∃ batch, s.code.AddsStub compiler func batch t.code)
      (fun _ _ => True) := by
  refine interpEntry_ensures (.inl rfl) (fun _ _ => trivial) fun exportIndex entry hexport => ?_
  obtain rfl := Block.func_of_exportOf hexport
  exact (createStub_adds rfl).during.mono (fun _ _ => .inr) (fun _ _ h => h)

/-- The stubs for the first tier are made anew in one batch, or there are none. -/
theorem upgradeStubs_adds {tier2 : Block} :
    (upgradeStubs compiler tier2).Ensures s
      (fun result t => ∃ made, result = made.map (fun _ => s.code.blocks.length) ∧
        s.code.AddsUpgrade compiler tier2 made t.code)
      (fun _ _ => True) := by
  refine upgradeStubs_ensures (motive := fun t => t.code = s.code)
    (fun hnone => ⟨none, rfl, ModuleCode.addsUpgrade_none hnone⟩)
    (fun _ => (onMemory_code _).mono (fun _ _ h => h) (fun _ _ _ => trivial)) (fun _ _ _ => trivial)
    fun t requests ht hrequests => ?_
  obtain ⟨hfuncs, hcallees⟩ := upgradeRequests_eq_ok hrequests
  rw [← ht] at hfuncs ⊢
  refine createStubs_adds.mono (fun result u hu => ?_) (fun _ _ _ => trivial)
  obtain ⟨batch, rfl, rfl, hentries, hindex, hmade, note, now, hnoted, hasked, hu⟩ := hu
  have hexports : u.code.lazyExports = t.code.lazyExports := (congrArg ModuleCode.lazyExports hu :)
  have hcalls : u.code.calls = t.code.calls ++ [note] := (congrArg ModuleCode.calls hu :)
  rw [hexports, hindex]
  refine ⟨some batch, rfl, ?_, ?_, ?_, ?_, now, hasked, ?_⟩
  · rintro _ ⟨⟩
    exact ⟨hmade, rfl⟩
  · rintro _ ⟨⟩
    exact hfuncs
  · rintro _ ⟨⟩
    exact ⟨note, hnoted, hcalls⟩
  · rw [← hentries]
    exact hmade.movedTo hfuncs hcallees _
  · dsimp only
    rw [ModuleCode.content_withExports, hu]
    simp [ModuleCode.withExports, hcalls, ht]

/-- A tier that is installed is published, with new stubs if there are any to make. -/
theorem installTier_adds (plan : PatchPlan) (compiled : CompiledBlock) :
    (installTier compiler plan compiled).Ensures s
      (fun _ t => ∃ tier2 made, s.code.AddsTier compiler compiled tier2 made t.code)
      (fun _ _ => True) := by
  refine (buildOptimized_ensures plan compiled).bind (fun tier2 t ht => ?_) (fun _ _ _ => trivial)
  obtain ⟨hkind, ⟨hcovers, htables⟩, ht⟩ := ht
  rw [← ht]
  refine (addBlock_content tier2).bind (fun _ u hu => ?_) (fun _ _ _ => trivial)
  have hupgrade : (Op.onFailure (upgradeStubs compiler tier2) (popBlock tier2)).Ensures u
      (fun result v => ∃ made, result = made.map (fun _ => u.code.blocks.length) ∧
        u.code.AddsUpgrade compiler tier2 made v.code) (fun _ _ => True) :=
    upgradeStubs_adds.onFailure _
  refine hupgrade.bind (fun _ v hv => ?_) (fun _ _ h => h)
  obtain ⟨made, rfl, hadds⟩ := hv
  rw [Op.ensures_bind, ensures_change]
  refine ((redirect_ledTo tier2 _).and ((redirect_jitGrown tier2 _).and (redirect_content tier2 _))).mono
    (fun _ w hw => ?_) (fun _ _ _ => trivial)
  obtain ⟨hledTo, hjitGrown, dispatch, hw⟩ := hw
  obtain rfl : w.code.dispatch = dispatch := (congrArg ModuleCode.dispatch hw :)
  refine ⟨tier2, made, hadds.addsTier hkind hcovers htables hu.2 hledTo ?_ hw⟩
  rw [← hadds.stubBlock_eq]
  exact hjitGrown

/-- An optimized tier is installed where there is none, over a first tier of the other kind. -/
theorem installOptimized_adds (plan : PatchPlan) (compiled : CompiledBlock) :
    (installOptimized compiler plan compiled).Ensures s
      (fun _ t => s.code.tier2 = .absent ∧ s.code.tier1.kind = .baselineTier ∧
        compiled.kind = .optimizedTier ∧
        ∃ tier2 made, s.code.AddsTier compiler compiled tier2 made t.code)
      (fun _ _ => True) := by
  refine (beginInstall_ensures compiled.kind).bind (fun _ t ht => ?_) (fun _ _ _ => trivial)
  obtain ⟨htier1, hkind, habsent, rfl⟩ := ht
  refine ((installTier_adds plan compiled).onFailure _).mono (fun _ u hu => ?_) (fun _ _ h => h)
  obtain ⟨tier2, made, hadds⟩ := hu
  exact ⟨habsent, htier1, hkind, tier2, made, { hadds with }⟩

/-- An interpreter entry is found, or made without a slot for it. -/
theorem interpEntry_sameSlots (func : Nat) :
    (interpEntry compiler func).Ensures s (fun _ t => s.code.dispatch.SameSlots t.code.dispatch)
      (fun _ _ => True) := by
  refine (interpEntry_adds func).mono (fun _ t ht => ?_) (fun _ _ h => h)
  obtain rfl | ⟨batch, hadds⟩ := ht
  · exact ⟨rfl, rfl, rfl⟩
  · exact hadds.offered.sameSlots

/-- Whether a tier that was compiled is published, and calls that led elsewhere lead to it. -/
def LedToPublished (s : Running) (compiled : CompiledBlock) (t : Running) : Prop :=
  ∃ tier2, t.code.tier2 = .published tier2 ∧ tier2.kind = compiled.kind ∧ tier2.Covers compiled ∧
    s.code.dispatch.LedTo tier2 tier2.tables.ranges t.code.dispatch

/-- An optimized tier that is installed is published, and calls lead to its function bodies. -/
theorem installOptimized_ledTo (plan : PatchPlan) (compiled : CompiledBlock) :
    (installOptimized compiler plan compiled).Ensures s
      (fun _ t => compiled.kind = .optimizedTier ∧ s.LedToPublished compiled t)
      (fun _ _ => True) := by
  refine (installOptimized_adds plan compiled).mono (fun _ t ht => ?_) (fun _ _ h => h)
  obtain ⟨-, -, hkind, tier2, made, hadds⟩ := ht
  have hpublished : t.code.tier2 = .published tier2 := (congrArg ModuleCode.tier2 hadds.content :)
  exact ⟨hkind, tier2, hpublished, hadds.kind, hadds.covers, hadds.ledTo⟩

end Running

end CompiledCode

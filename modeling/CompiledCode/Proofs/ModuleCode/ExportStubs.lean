import CompiledCode.Proofs.ModuleCode.Exports
import CompiledCode.Proofs.ModuleCode.Life

/-!
# What entry stubs call

All its life, an entry stub that was made on demand calls the function that it is the export of, in
the block that provides the function at present. The stub was compiled in some call from a request
that says so, and the export refers to it by the first interpreter entry that the block of stubs has
for the function.

Stubs for imports call the shared stubs and are made once. Those for other functions are made anew
when an optimized tier is installed, all of them in the order of the exports, so that every export is
paired with the entries of its own function.
-/

namespace CompiledCode

/-- Whether a call turns the code of a module into other code and makes a batch of stubs for it. -/
structure ModuleCall.Makes (call : ModuleCall) (batch : StubBatch) (before after : ModuleCode) :
    Prop where
  turns : call.Turns before after
  madeBy : ∃ compiler ∈ call.compiler?, batch.MadeBy compiler
  noted : ∃ note, batch.NotedAs note ∧ after.calls = before.calls ++ [note]
  added : after.blocks.getLast? = some batch.block

namespace ModuleCode

/-- Exports stay filed whatever a call comes to. -/
theorem Filed.outcome {call : ModuleCall} {code after : ModuleCode} (h : code.Filed)
    (houtcome : call.Outcome code after) : after.Filed := by
  cases houtcome with
  | notes hmarked =>
    obtain ⟨calls, tier2, -, hcontent⟩ := hmarked
    have hblocks : after.blocks = code.blocks := (congrArg ModuleCode.blocks hcontent :)
    exact h.of_isPrefix (hblocks ▸ List.prefix_rfl) (congrArg ModuleCode.lazyExports hcontent :)
  | stub hadds => exact h.addsStub hadds
  | @tier _ _ _ tier2 made _ _ _ _ hadds =>
    have hblocks : after.blocks = code.blocks ++ tier2 :: (made.map (·.block)).toList :=
      (congrArg ModuleCode.blocks hadds.content :)
    refine h.moved hadds.exports (hblocks ▸ List.prefix_append _ _) fun batch hbatch => ?_
    refine ⟨?_, (hadds.madeBy batch hbatch).1.houses.kind⟩
    obtain rfl : made = some batch := hbatch
    rw [hblocks, List.append_cons, List.getElem?_append_right (by simp)]
    simp
  | offer _ hcontent =>
    have hblocks : after.blocks = code.blocks := (congrArg ModuleCode.blocks hcontent :)
    exact h.of_isPrefix (hblocks ▸ List.prefix_rfl) (congrArg ModuleCode.lazyExports hcontent :)

/-- Whether a batch of stubs was made by one of the calls of a run. -/
def MadeIn (batch : StubBatch) (calls : List ModuleCall) (start code : ModuleCode) : Prop :=
  ∃ earlier call rest before after, calls = earlier ++ call :: rest ∧ Runs earlier start before ∧
    call.Makes batch before after ∧ Runs rest after code

variable {calls : List ModuleCall} {call : ModuleCall} {start code after : ModuleCode}
  {batch : StubBatch} {lazyExport : LazyExport}

/-- The last call of a run may have made a batch. -/
theorem madeIn_of_makes (hrun : Runs calls start code) (h : call.Makes batch code after) :
    MadeIn batch (calls ++ [call]) start after :=
  ⟨calls, call, [], code, after, rfl, hrun, h, .nil⟩

/-- A batch that was made stays one that was made. -/
theorem MadeIn.snoc (h : MadeIn batch calls start code) (hturn : call.Turns code after) :
    MadeIn batch (calls ++ [call]) start after := by
  obtain ⟨earlier, other, rest, before, middle, rfl, hearlier, hmakes, hrest⟩ := h
  refine ⟨earlier, other, rest ++ [call], before, middle, ?_, hearlier, hmakes, hrest.snoc hturn⟩
  rw [List.append_assoc, List.cons_append]

/-- Whether blocks that provide imports differ in kind from those that provide other functions. -/
structure KindsApart (code : ModuleCode) : Prop where
  sharedStubs : code.sharedStubs.kind = .sharedStubs
  tier1 : code.tier1.kind ≠ .sharedStubs
  tier2 : ∀ block ∈ code.tier2.block?, block.kind = .optimizedTier

/-- The blocks that a module starts out with differ in kind. -/
theorem CreatedFrom.kindsApart {settings : Settings} {symbols : SymbolTable} {parts : ModuleParts}
    (h : CreatedFrom settings symbols parts code) : code.KindsApart := by
  obtain ⟨-, ⟨_, _, hshared⟩, ⟨_, _, htier1⟩⟩ := h.blocks
  refine ⟨?_, fun hkind => ?_, ?_⟩
  · rw [hshared]
    exact h.sharedKind
  · have htier := h.tierKind
    rw [htier1] at hkind
    rw [show _ = BlockKind.sharedStubs from hkind] at htier
    contradiction
  · rw [h.fresh.1]
    exact fun _ hblock => absurd hblock (Option.not_mem_none _)

/-- The kinds of blocks that provide functions as before do not change. -/
theorem KindsApart.congr (h : code.KindsApart) (hsame : code.SameProviders after) :
    after.KindsApart := by
  constructor
  · rw [hsame.sharedStubs]
    exact h.sharedStubs
  · rw [hsame.tier1]
    exact h.tier1
  · rw [hsame.tier2]
    exact h.tier2

/-- Imports are provided by shared stubs, and other functions by the optimized tier if there is one. -/
theorem KindsApart.kind_provider (h : code.KindsApart) (func : Nat) :
    (code.provider func).kind =
      if func < code.imports.length then .sharedStubs
      else if code.hasOptimized then .optimizedTier
      else code.tier1.kind := by
  rw [provider, hasOptimized]
  split
  · exact h.sharedStubs
  · cases hblock : code.tier2.block? with
    | none => rfl
    | some block => exact h.tier2 block hblock

/-- Whether every export refers to a stub that was made in a run, and the exports are sorted. -/
structure Supplied (calls : List ModuleCall) (start code : ModuleCode) : Prop where
  kinds : code.KindsApart
  sorted : KeySorted (·.func) code.lazyExports
  stubbed : ∀ lazyExport ∈ code.lazyExports, ∃ batch, MadeIn batch calls start code ∧
    code.Stubbed (code.provider lazyExport.func) lazyExport batch

/-- A module starts out without any exports that would need stubs. -/
theorem Started.supplied (h : start.Started) : Supplied [] start start := by
  obtain ⟨_, _, _, _, _, hend⟩ := h.exists_create
  have hfrom := (create_content ..).of_ok hend
  obtain ⟨-, hnone⟩ := hfrom.fresh
  refine ⟨hfrom.kindsApart, ?_, ?_⟩
  · rw [hnone]
    exact List.Pairwise.nil
  · rw [hnone]
    exact fun _ hmem => absurd hmem List.not_mem_nil

/-- Exports are supplied as before by a call that adds none. -/
theorem Supplied.keep (h : Supplied calls start code) (hturn : call.Turns code after)
    (hsame : code.SameProviders after) (hblocks : after.blocks = code.blocks)
    (hexports : after.lazyExports = code.lazyExports) : Supplied (calls ++ [call]) start after := by
  refine ⟨h.kinds.congr hsame, ?_, fun lazyExport hmem => ?_⟩
  · rw [hexports]
    exact h.sorted
  · rw [hexports] at hmem
    obtain ⟨batch, hmade, hstubbed⟩ := h.stubbed lazyExport hmem
    have hprefix : code.blocks <+: after.blocks := hblocks ▸ List.prefix_refl _
    rw [hsame.provider_eq]
    exact ⟨batch, hmade.snoc hturn, hstubbed.of_isPrefix hprefix⟩

/-- The first stub of a function supplies its export. -/
theorem Supplied.stub (h : Supplied calls start code) (hrun : Runs calls start code)
    {compiler : StubCompiler} {func : Nat} (hturn : (ModuleCall.entry compiler func).Turns code after)
    (hadds : code.AddsStub compiler func batch after) :
    Supplied (calls ++ [.entry compiler func]) start after := by
  obtain ⟨position, rangeIndex, hvacant, henters, hexports⟩ := hadds.exports
  obtain ⟨note, tier2, hnoted, -, hcontent⟩ := hadds.content
  have hblocks : after.blocks = code.blocks ++ [batch.block] := (congrArg ModuleCode.blocks hcontent :)
  have hcalls : after.calls = code.calls ++ [note] := (congrArg ModuleCode.calls hcontent :)
  have hsame := hadds.sameProviders
  have hmakes : (ModuleCall.entry compiler func).Makes batch code after :=
    { turns := hturn
      madeBy := ⟨compiler, rfl, hadds.madeBy⟩
      noted := ⟨note, hnoted, hcalls⟩
      added := by rw [hblocks, List.getLast?_concat] }
  refine ⟨h.kinds.congr hsame, ?_, fun lazyExport hmem => ?_⟩
  · rw [hexports]
    exact h.sorted.insertIdx hvacant
  · rw [hsame.provider_eq]
    obtain ⟨rfl, hstubbed⟩ | hold := hadds.stubbed_or_mem h.sorted hmem
    · exact ⟨batch, madeIn_of_makes hrun hmakes, hstubbed⟩
    · obtain ⟨other, hmade, hstubbed⟩ := h.stubbed lazyExport hold
      have hprefix : code.blocks <+: after.blocks := hblocks ▸ List.prefix_append _ _
      exact ⟨other, hmade.snoc hturn, hstubbed.of_isPrefix hprefix⟩

/-- An export calls into the first tier exactly if its function is defined, as long as there is no other
tier. -/
theorem Supplied.kind_eq_tier1 (h : Supplied calls start code) (hnone : code.tier2.block? = none)
    (hmem : lazyExport ∈ code.lazyExports) :
    lazyExport.kind = code.tier1.kind ↔ code.imports.length ≤ lazyExport.func := by
  obtain ⟨batch, -, hstubbed⟩ := h.stubbed lazyExport hmem
  rw [hstubbed.kind]
  constructor
  · intro hkind
    by_contra himport
    rw [provider, if_pos (Nat.lt_of_not_le himport), h.kinds.sharedStubs] at hkind
    exact h.kinds.tier1 hkind.symm
  · intro hdefined
    rw [provider_of_not_published hnone hdefined]

section tier

variable {compiler : StubCompiler} {plan : PatchPlan} {compiled : CompiledBlock} {tier2 : Block}
  {made : Option StubBatch}

/-- The kinds of blocks that provide functions stay apart when an optimized tier is published. -/
theorem KindsApart.tier (h : code.KindsApart) (hkind : compiled.kind = .optimizedTier)
    (hadds : code.AddsTier compiler compiled tier2 made after) : after.KindsApart := by
  have hshared : after.sharedStubs = code.sharedStubs :=
    (congrArg ModuleCode.sharedStubs hadds.content :)
  have htier1 : after.tier1 = code.tier1 := (congrArg ModuleCode.tier1 hadds.content :)
  have htier2 : after.tier2 = .published tier2 := (congrArg ModuleCode.tier2 hadds.content :)
  constructor
  · rw [hshared]
    exact h.sharedStubs
  · rw [htier1]
    exact h.tier1
  · rw [htier2]
    rintro _ ⟨⟩
    exact hadds.kind.trans hkind

/-- An install makes the batch that it adds to the module. -/
theorem AddsTier.makes (h : code.AddsTier compiler compiled tier2 made after)
    (hturn : (ModuleCall.install compiler plan compiled).Turns code after) (hmade : batch ∈ made) :
    (ModuleCall.install compiler plan compiled).Makes batch code after := by
  obtain rfl : made = some batch := hmade
  have hblocks : after.blocks = code.blocks ++ tier2 :: [batch.block] :=
    (congrArg ModuleCode.blocks h.content :)
  exact
    { turns := hturn
      madeBy := ⟨compiler, rfl, (h.madeBy batch rfl).1⟩
      noted := h.noted batch rfl
      added := by rw [hblocks, List.append_cons, List.getLast?_concat] }

/-- The batch that an install makes is the last block, behind the tier. -/
theorem AddsTier.getElem?_blocks (h : code.AddsTier compiler compiled tier2 made after)
    (hmade : batch ∈ made) : after.blocks[code.blocks.length + 1]? = some batch.block := by
  obtain rfl : made = some batch := hmade
  have hblocks : after.blocks = code.blocks ++ tier2 :: [batch.block] :=
    (congrArg ModuleCode.blocks h.content :)
  have hlength : (code.blocks ++ [tier2]).length = code.blocks.length + 1 := List.length_append
  rw [hblocks, List.append_cons, ← hlength]
  exact List.getElem?_concat_length

/-- The provider of a defined function is the tier after an install. -/
theorem AddsTier.provider_eq_tier2 (h : code.AddsTier compiler compiled tier2 made after) {func : Nat}
    (hdefined : code.imports.length ≤ func) : after.provider func = tier2 := by
  have himports : after.imports = code.imports := (congrArg ModuleCode.imports h.content :)
  have htier2 : after.tier2 = .published tier2 := (congrArg ModuleCode.tier2 h.content :)
  exact provider_of_published (congrArg OptimizedTier.block? htier2) (himports ▸ hdefined)

/-- The provider of an import is the same after an install. -/
theorem AddsTier.provider_eq (h : code.AddsTier compiler compiled tier2 made after) {func : Nat}
    (himport : func < code.imports.length) : after.provider func = code.provider func := by
  have himports : after.imports = code.imports := (congrArg ModuleCode.imports h.content :)
  have hshared : after.sharedStubs = code.sharedStubs := (congrArg ModuleCode.sharedStubs h.content :)
  rw [provider, provider, himports, hshared, if_pos himport, if_pos himport]

/-- A tier that is published supplies the exports of all functions but imports. -/
theorem Supplied.tier (h : Supplied calls start code) (hrun : Runs calls start code)
    (hturn : (ModuleCall.install compiler plan compiled).Turns code after)
    (habsent : code.tier2 = .absent) (hkind : compiled.kind = .optimizedTier)
    (hadds : code.AddsTier compiler compiled tier2 made after) :
    Supplied (calls ++ [.install compiler plan compiled]) start after := by
  have hnone : code.tier2.block? = none := congrArg OptimizedTier.block? habsent
  refine ⟨h.kinds.tier hkind hadds, ?_, fun lazyExport hmem => ?_⟩
  · exact keySorted_of_funcs_eq
      (funcs_eq_of_forall₂ hadds.exports fun _ _ hmoved => hmoved.func_eq) h.sorted
  obtain ⟨old, hold, hfunc, hmoved⟩ :=
    exists_of_moved hadds.exports (fun _ hmade => hadds.getElem?_blocks hmade) hmem
  -- The kind of an export tells whether its function is defined, so that no import is moved.
  have hdefined := h.kind_eq_tier1 hnone hold
  obtain ⟨hfirst, batch, hmade, hstubbed⟩ | ⟨hother, rfl⟩ := hmoved
  · rw [hadds.provider_eq_tier2 (hfunc ▸ hdefined.mp hfirst), ← (hadds.madeBy batch hmade).2]
    exact ⟨batch, madeIn_of_makes hrun (hadds.makes hturn hmade), hstubbed⟩
  · have himport : lazyExport.func < code.imports.length :=
      Nat.lt_of_not_le fun hle => hother (hdefined.mpr hle)
    have hblocks : after.blocks = code.blocks ++ tier2 :: (made.map (·.block)).toList :=
      (congrArg ModuleCode.blocks hadds.content :)
    have hprefix : code.blocks <+: after.blocks := hblocks ▸ List.prefix_append _ _
    rw [hadds.provider_eq himport]
    obtain ⟨batch, hmade, hstubbed⟩ := h.stubbed lazyExport hold
    exact ⟨batch, hmade.snoc hturn, hstubbed.of_isPrefix hprefix⟩

end tier

/-- Exports are supplied whatever a call comes to. -/
theorem Supplied.snoc (h : Supplied calls start code) (hrun : Runs calls start code)
    (hturn : call.Turns code after) : Supplied (calls ++ [call]) start after := by
  cases hturn.outcome with
  | notes hmarked =>
    have hsame := hmarked.sameProviders
    obtain ⟨notes, tier2, -, hcontent⟩ := hmarked
    exact h.keep hturn hsame (congrArg ModuleCode.blocks hcontent :)
      (congrArg ModuleCode.lazyExports hcontent :)
  | stub hadds => exact h.stub hrun hturn hadds
  | tier habsent _ hkind hadds => exact h.tier hrun hturn habsent hkind hadds
  | offer _ hcontent =>
    exact h.keep hturn (sameProviders_of_dispatch hcontent) (congrArg ModuleCode.blocks hcontent :)
      (congrArg ModuleCode.lazyExports hcontent :)

/-- Every export leads to a stub of its own function. Whatever calls have been made on a module since it
was created or loaded, its exports are sorted by function, and each is of the kind of the block that
provides the function. It refers to the first interpreter entry that a block of stubs has for the
function, and the stubs in that block are what a compiler has made, in one of the calls, of requests
among which is one for the function at its address in the block that provides it. -/
theorem exports_lead_to_their_stubs (hstart : start.Started) (hrun : Runs calls start code) :
    code.lazyExports.Pairwise (fun first second => first.func < second.func) ∧
    ∀ lazyExport ∈ code.lazyExports,
      lazyExport.kind = (code.provider lazyExport.func).kind ∧
      (code.provider lazyExport.func).kind = (if lazyExport.func < code.imports.length then .sharedStubs
        else if code.hasOptimized then .optimizedTier
        else code.tier1.kind) ∧
      ∃ batch, MadeIn batch calls start code ∧
        code.blocks[lazyExport.blockIndex]? = some batch.block ∧ batch.block.kind = .lazyStubs ∧
        entryIndex? .interpEntry lazyExport.func batch.block.tables.ranges =
          some lazyExport.rangeIndex ∧
        ∃ request ∈ batch.requests, request.func = lazyExport.func ∧
          Block.funcEntry? (code.provider lazyExport.func) lazyExport.func = some request.callee := by
  have hsupplied : Supplied calls start code := by
    induction hrun with
    | nil => exact hstart.supplied
    | snoc hrun hturn ih => exact (ih hstart).snoc hrun hturn
  refine ⟨hsupplied.sorted, fun lazyExport hmem => ?_⟩
  obtain ⟨batch, hmade, hstubbed⟩ := hsupplied.stubbed lazyExport hmem
  have hrequests := hstubbed.requests
  rw [StubBatch.Requests, hstubbed.tier] at hrequests
  have hstubs : batch.block.kind = .lazyStubs := by
    obtain ⟨_, _, _, _, _, -, -, hmakes, -⟩ := hmade
    obtain ⟨_, -, hmadeBy⟩ := hmakes.madeBy
    exact hmadeBy.houses.kind
  exact ⟨hstubbed.kind, hsupplied.kinds.kind_provider _, batch, hmade, hstubbed.block, hstubs, hstubbed.enters,
    hrequests⟩

/-- The import has the stub that was made first, and the function the one that was made for the optimized
tier. -/
theorem exports_lead_to_their_stubs_once_installed :
    ∃ (layout : StubLayout) (start code : ModuleCode), start.Started ∧
      Runs [.entry layout.compiler 0, .entry layout.compiler 1,
        .install layout.compiler {} .oneImportOptimized] start code ∧
      code.lazyExports.Pairwise (fun first second => first.func < second.func) ∧
      ∃ imported defined, code.lazyExports = [imported, defined] ∧
        imported.kind = .sharedStubs ∧ defined.kind = .optimizedTier ∧
        ∃ batch, MadeIn batch [.entry layout.compiler 0, .entry layout.compiler 1,
            .install layout.compiler {} .oneImportOptimized] start code ∧
          code.blocks[5]? = some batch.block ∧ batch.block.kind = .lazyStubs ∧
          entryIndex? .interpEntry 1 batch.block.tables.ranges = some 0 ∧
          ∃ request ∈ batch.requests, request.func = 1 ∧
            Block.funcEntry? (code.provider 1) 1 = some request.callee := by
  let layout : StubLayout := {}
  let calls : List ModuleCall := [.entry layout.compiler 0, .entry layout.compiler 1,
    .install layout.compiler {} .oneImportOptimized]
  let imported : LazyExport := { func := 0, blockIndex := 2, rangeIndex := 0, kind := .sharedStubs }
  let defined : LazyExport := { func := 1, blockIndex := 5, rangeIndex := 0, kind := .optimizedTier }
  have hends : (create { mode := .tiering } .empty .oneImport).succeeds {} (fun code engine =>
      (calls.forM ModuleCall.run).succeeds { engine, code } fun _ t =>
        t.code.lazyExports = [imported, defined]) = true := by
    decide +kernel
  obtain ⟨start, _, t, hcreate, hrun, htest⟩ := exists_run hends
  have hstart : start.Started := .created hcreate
  have hexports := of_decide_eq_true htest
  obtain ⟨hsorted, hstubs⟩ := exports_lead_to_their_stubs hstart hrun
  rw [hexports] at hstubs
  obtain ⟨-, -, hstub⟩ := hstubs defined (List.mem_cons_of_mem _ List.mem_cons_self)
  exact ⟨layout, start, t.code, hstart, hrun, hsorted, imported, defined, hexports, rfl, rfl, hstub⟩

end ModuleCode

end CompiledCode

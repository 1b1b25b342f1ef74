import CompiledCode.Proofs.ModuleCode.StubRules
import CompiledCode.Proofs.Stubs

/-!
# What making entry stubs leaves behind

Entry stubs that are made are one more block of the module, with an interpreter entry for
every request. Whenever making them ends without a result, there is nothing of it in the
content of the module but the call to the stub compiler.

The compiler is any that does not itself ask for an install.
-/

namespace CompiledCode

/-- A note of a call for some functions and a block that the stubs call into. -/
structure StubCall.Notes (call : StubCall) (tier : Block) (funcs : List Nat) : Prop where
  kind : call.kind = tier.kind
  funcs : call.requests.map (·.func) = funcs

/-- Entries that are the interpreter entries of functions, one by one. -/
def Block.HasEntries (block : Block) : List Nat → List StubEntries → Prop :=
  List.Forall₂ fun func found => InterpEntryAt block.tables.ranges func found.interp

/-- Whether a block holds compiled stubs, with their tables moved to where it starts. -/
structure Block.Houses (block : Block) (stubs : CompiledStubs) : Prop where
  kind : block.kind = .lazyStubs
  tables : block.tables = { stubs.tables with funcs := {} }.shift block.start
  stop : block.stop = block.start + stubs.code.length

/-- The first entry of a function has the same index in a block as in the stubs that it holds. -/
theorem Block.Houses.entryIndex?_eq {block : Block} {stubs : CompiledStubs} (h : block.Houses stubs)
    (kind : RangeKind) (func : Nat) :
    entryIndex? kind func block.tables.ranges = entryIndex? kind func stubs.tables.ranges := by
  rw [h.tables]
  exact entryIndex?_shift kind func stubs.tables.ranges block.start

/-- A block of stubs has the interpreter entries that the stubs have. -/
theorem Block.Houses.hasEntries {block : Block} {stubs : CompiledStubs} (h : block.Houses stubs)
    {requests : List StubRequest} {entries : List StubEntries}
    (hentries : stubs.entriesFor requests = .ok entries) :
    block.HasEntries (requests.map (·.func)) entries := by
  rw [HasEntries, List.forall₂_map_left_iff]
  refine (CompiledStubs.entriesFor_eq_ok hentries).imp fun request found hfound => ?_
  have hinterp := (CompiledStubs.entries?_eq_some hfound).1
  rw [← h.entryIndex?_eq] at hinterp
  exact exists_of_entryIndex? hinterp

/-- What the first stub of a function adds to the code of a module. -/
structure NewStub where
  /-- The note of the call to the stub compiler. -/
  call : StubCall
  /-- The block of the stub. -/
  block : Block
  /-- The position of the stub among those of other functions. -/
  position : Nat
  /-- The index of the interpreter entry among the code ranges of the block. -/
  rangeIndex : Nat
  /-- The interpreter entry. -/
  range : CodeRange

/-- Whether a stub is the first one of a function, and calls into a block. -/
structure NewStub.For (stub : NewStub) (code : ModuleCode) (func : Nat) (tier : Block) : Prop where
  notes : stub.call.Notes tier [func]
  kind : stub.block.kind = .lazyStubs
  vacant : searchKey (·.func) code.lazyExports func = .vacant stub.position
  range : stub.block.tables.ranges[stub.rangeIndex]? = some stub.range
  entry : stub.range.kind = .interpEntry
  func : stub.range.func = some func

/-- The code of a module with the first stub of a function. -/
def ModuleCode.withStub (code : ModuleCode) (func : Nat) (kind : BlockKind) (stub : NewStub) :
    ModuleCode :=
  ((code.withCall stub.call).withBlock stub.block).withExports
    (code.lazyExports.insertIdx stub.position
      { func, blockIndex := code.blocks.length, rangeIndex := stub.rangeIndex, kind })

/-- Whether there is nothing of an attempt to make stubs but a note of the call, if that. -/
def Attempted (tier : Block) (funcs : List Nat) (before after : ModuleCode) : Prop :=
  after.content = before.content ∨
    ∃ call : StubCall, call.Notes tier funcs ∧ after.content = before.content.withCall call

namespace Running

variable {s : Running} {compiler : StubCompiler} {tier : Block} {requests : List StubRequest}

/-- A call of the compiler leaves a note of it and nothing else. -/
theorem callCompiler_ensures (sawOptimized : Bool) (install : Option (Option Failure)) :
    (callCompiler compiler tier requests sawOptimized install).Ensures s
      (fun _ t => ∃ call, call.Notes tier (requests.map (·.func)) ∧
        t = { s with code := s.code.withCall call })
      (fun fault t => fault.isViolation = false ∧ ∃ call,
        call.Notes tier (requests.map (·.func)) ∧ t = { s with code := s.code.withCall call }) := by
  rw [callCompiler, Op.ensures_bind, ensures_change]
  cases compiler.compile tier requests with
  | ok stubs => exact (Op.ensures_pure stubs).mpr ⟨_, ⟨rfl, rfl⟩, rfl⟩
  | error failure => exact (Op.ensures_throw _).mpr ⟨rfl, _, ⟨rfl, rfl⟩, rfl⟩

/-- A compiler that does not ask for an install leaves a note of the call. -/
theorem compileStubs_code (hquiet : compiler.asksForInstall tier = false) :
    (compileStubs compiler tier requests).Ensures s
      (fun _ t => ∃ call, call.Notes tier (requests.map (·.func)) ∧ t.code = s.code.withCall call)
      (fun _ t => ∃ call, call.Notes tier (requests.map (·.func)) ∧ t.code = s.code.withCall call) := by
  refine compileStubs_ensures_of_quiet hquiet fun _ _ =>
    (callCompiler_ensures _ _).mono (fun _ t ht => ?_) (fun _ t ht => ?_)
  · obtain ⟨call, hnotes, rfl⟩ := ht
    exact ⟨call, hnotes, rfl⟩
  · obtain ⟨-, call, hnotes, rfl⟩ := ht
    exact ⟨call, hnotes, rfl⟩

/-- A function is called at its address in the block that provides it. -/
theorem funcEntry?_of_callee {func address : Nat} (h : callee tier func = .ok address) :
    tier.funcEntry? func = some address := by
  rw [callee] at h
  split at h
  · rename_i hentry
    rw [hentry, Except.ok.inj h]
  · contradiction

/-- Finding a segment for stubs leaves the content alone. -/
theorem stubSegment_content (needed : Nat) :
    (stubSegment needed).Ensures s (fun _ t => t.code.content = s.code.content)
      (fun _ t => t.code.content = s.code.content) := by
  refine stubSegment_ensures (motive := fun t => t.code = s.code) (fun _ _ _ => rfl) (fun _ => rfl)
    (fun _ => (onMemory_code _).mono (fun _ _ h => h) (fun _ t ht => by rw [ht]))
    fun t bytes ht _ => (onMemory_code _).during.mono (fun segment u hu => ?_)
      (fun _ u hu => by rw [hu, ht])
  change u.code.content = s.code.content
  rw [hu, ht]

/-- The segment for stubs is the last one, from then on if not before. -/
theorem stubSegment_last (needed : Nat) :
    (stubSegment needed).Ensures s (fun segment t => t.code.lazySegments.getLast? = some segment)
      (fun _ _ => True) :=
  stubSegment_ensures (motive := fun _ => True) (fun _ hlast _ => hlast) (fun _ => trivial)
    (fun _ => Op.ensures_true _ _) fun _ _ _ _ => (Op.ensures_true _ _).mono
      (fun _ _ _ => List.getLast?_concat) (fun _ _ h => h)

/-- Stubs that are put where room is claimed for them are one more block, in the segment in question. -/
theorem putStubs_content (stubs : CompiledStubs) (entries : List StubEntries) (segment : Segment)
    (offset : Nat) :
    (putStubs stubs entries segment offset).Ensures s
      (fun result t => ∃ block : Block, block.Houses stubs ∧ block.segment = segment ∧
        result = (s.code.blocks.length, entries) ∧ t.code.content = s.code.content.withBlock block)
      (fun _ t => t.code.content = s.code.content) := by
  refine putStubs_ensures (motive := fun t => t.code = s.code)
    ((onMemory_code _).mono (fun _ _ ht => ht) (fun _ t ht => by rw [ht]))
    (fun t ht _ => by rw [ht]) (fun t ht _ => by rw [ht]) fun t ht => ?_
  refine (onMemory_ensures (Block.make_ensures ..)).mono (fun block u hu => ?_)
    (fun _ u hu => by rw [hu.1, ht])
  obtain ⟨hu, hassemble, -⟩ := hu
  refine (onEngine_ensures (Engine.bindBlock_ensures ..)).mono (fun bound v hv => ?_)
    (fun _ v hv => by rw [hv.1, hu, ht])
  obtain ⟨hv, hbound, -⟩ := hv
  have hcontent : v.code.content = s.code.content := by rw [hv, hu, ht]
  refine (addBlock_content _).mono (fun index w hw => ?_) (fun _ w hw => by rw [hw, hcontent])
  obtain ⟨rfl, hw⟩ := hw
  obtain ⟨rfl, -⟩ := Block.assemble_eq_ok hassemble
  rw [ModuleCode.blocks_eq_of_content hcontent]
  exact ⟨bound, hbound ▸ ⟨rfl, rfl, rfl⟩, hbound ▸ rfl, rfl, by rw [hw, hcontent]⟩

/-- Stubs that are placed are one more block, and have the entries of all requests. -/
theorem placeStubs_content (stubs : CompiledStubs) :
    (placeStubs stubs requests).Ensures s
      (fun result t => ∃ block : Block, block.Houses stubs ∧
        stubs.entriesFor requests = .ok result.2 ∧ result.1 = s.code.blocks.length ∧
        t.code.content = s.code.content.withBlock block)
      (fun _ t => t.code.content = s.code.content) := by
  refine placeStubs_ensures (fun _ => rfl) fun entries needed hentries _ => ?_
  refine (stubSegment_content needed).mono (fun segment t ht => ?_) (fun _ _ ht => ht)
  refine (onMemory_code _).mono (fun offset u hu => ?_) (fun _ u hu => by rw [hu, ht])
  have hcontent : u.code.content = s.code.content := by rw [hu, ht]
  refine (putStubs_content stubs entries segment offset).mono (fun result v hv => ?_)
    (fun _ v hv => hv.trans hcontent)
  obtain ⟨block, hhouses, -, rfl, hv⟩ := hv
  exact ⟨block, hhouses, hentries, by rw [ModuleCode.blocks_eq_of_content hcontent], by rw [hv, hcontent]⟩

/-- Stubs that are made are one more block, with an interpreter entry for each request. -/
theorem createStubs_content (hquiet : compiler.asksForInstall tier = false) :
    (createStubs compiler requests tier).Ensures s
      (fun result t => ∃ (call : StubCall) (block : Block), call.Notes tier (requests.map (·.func)) ∧
        block.kind = .lazyStubs ∧ block.HasEntries (requests.map (·.func)) result.2 ∧
        result.1 = s.code.blocks.length ∧
        t.code.content = (s.code.content.withCall call).withBlock block)
      (fun _ t => ∃ call, call.Notes tier (requests.map (·.func)) ∧
        t.code.content = s.code.content.withCall call) := by
  refine (compileStubs_code hquiet).during.bind (fun stubs t ht => ?_) (fun _ t ht => ?_)
  · obtain ⟨call, hcall, ht⟩ := ht
    have hcontent : t.code.content = s.code.content.withCall call := by rw [ht]; rfl
    have hlength : t.code.blocks.length = s.code.blocks.length := by rw [ht]; rfl
    rw [← hlength]
    refine (placeStubs_content stubs).mono (fun result u hu => ?_) (fun _ u hu => ?_)
    · obtain ⟨block, hhouses, hentries, hindex, hu⟩ := hu
      exact ⟨call, block, hcall, hhouses.kind, hhouses.hasEntries hentries, hindex, by rw [hu, hcontent]⟩
    · exact ⟨call, hcall, by rw [hu, hcontent]⟩
  · obtain ⟨call, hcall, ht⟩ := ht
    exact ⟨call, hcall, by rw [ht]; rfl⟩

/-- Offering a jit entry changes nothing but the dispatch tables, and cannot fail. -/
theorem offerJitEntry_content (func : Nat) (stubs : Block) (jit : Option Nat) :
    (offerJitEntry func stubs jit).Ensures s
      (fun _ t => t.code.content = s.code.content.withDispatch t.code.dispatch)
      (fun fault t => fault.isViolation = true ∧
        t.code.content = s.code.content.withDispatch t.code.dispatch) := by
  cases jit with
  | none => exact (Op.ensures_pure _).mpr rfl
  | some jit =>
    rw [offerJitEntry, Op.ensures_bind, Op.ensures_ofChecked]
    split
    · exact (onDispatch_content (DispatchTables.setJitEntryIfEmpty_ensures ..)).bind
        (fun _ t ht => (Op.ensures_pure _).mpr ht.2) (fun _ _ ht => ⟨ht.1.1, ht.2⟩)
    · exact ⟨rfl, rfl⟩

/-- The first stub of a function is a new block and a new export; else there is a note at most. -/
theorem createStub_content (hquiet : compiler.asksForInstall tier = false) (exportIndex : Nat)
    (entry : FuncExport) :
    (createStub compiler exportIndex entry tier).Ensures s
      (fun address t => ∃ stub : NewStub, stub.For s.code entry.func tier ∧
        address = stub.block.addressOf stub.range.start ∧
        ∃ dispatch, t.code.content =
          (s.code.content.withStub entry.func tier.kind stub).withDispatch dispatch)
      (fun fault t => Attempted tier [entry.func] s.code t.code ∨
        fault.isViolation = true ∧ ∃ stub : NewStub, stub.For s.code entry.func tier ∧
          ∃ dispatch, t.code.content =
            (s.code.content.withStub entry.func tier.kind stub).withDispatch dispatch) := by
  refine createStub_ensures (motive := fun t => t.code = s.code) (fun _ _ => .inl (.inl rfl))
    (fun _ => (onMemory_code _).mono (fun _ _ h => h) (fun _ t ht => .inl (.inl (by rw [ht]))))
    (fun t _ ht => .inl (.inl (by rw [ht]))) fun t position address ht hvacant _ => ?_
  refine (createStubs_content hquiet).mono (fun result u hu => ?_) (fun _ u hu => ?_)
  case refine_2 =>
    obtain ⟨call, hcall, hu⟩ := hu
    exact .inl (.inr ⟨call, hcall, by rw [hu, ht]⟩)
  obtain ⟨index, entries⟩ := result
  obtain ⟨call, block, hcall, hkind, hentries, hindex, hu⟩ := hu
  obtain ⟨found, rest, ⟨range, hrange, hinterp, hfunc⟩, hrest, rfl : entries = _⟩ :=
    List.forall₂_cons_left_iff.mp hentries
  obtain rfl : rest = [] := List.forall₂_nil_left_iff.mp hrest
  obtain rfl : index = s.code.blocks.length := by rw [← ht]; exact hindex
  rw [ht] at hu
  have hblocks : u.code.blocks = s.code.blocks ++ [block] := (congrArg ModuleCode.blocks hu :)
  have hexports : u.code.lazyExports = s.code.lazyExports :=
    (congrArg ModuleCode.lazyExports hu :)
  -- From here on the stub is there, so that only a violation can keep its address back.
  let stub : NewStub := { call, block, position, rangeIndex := found.interp, range }
  have hstub : stub.For s.code entry.func tier :=
    { notes := hcall, kind := hkind, vacant := hvacant, range := hrange, entry := hinterp, func := hfunc }
  have hat : u.code.blocks[s.code.blocks.length]? = some block := by
    rw [hblocks, List.getElem?_concat_length]
  have hmade : (u.code.withExports (u.code.lazyExports.insertIdx position
        { func := entry.func, blockIndex := s.code.blocks.length, rangeIndex := found.interp
          kind := tier.kind })).content =
      s.code.content.withStub entry.func tier.kind stub := by
    rw [ModuleCode.content_withExports, hu, hexports]
    rfl
  refine fileStub_ensures_of hat hrange
    ((offerJitEntry_content _ _ _).mono (fun _ v hv => ?_) (fun fault v hv => ?_))
  · rw [hmade] at hv
    exact ⟨stub, hstub, rfl, _, hv⟩
  · rw [hmade] at hv
    exact .inr ⟨hv.1, stub, hstub, _, hv.2⟩

/-- Looking for an entry stub violates nothing that maps of regions look after. -/
theorem ofMap_of_lazyEntry {code : ModuleCode} {func : Nat} {violation : Violation}
    (h : code.lazyEntry func = .error violation) : violation.ofMap = false := by
  rw [ModuleCode.lazyEntry] at h
  split at h
  · contradiction
  · split at h
    · cases h
      rfl
    · rename_i block _
      cases hrange : block.rangeAt _ with
      | ok range =>
        rw [hrange] at h
        contradiction
      | error other =>
        rw [hrange] at h
        cases h
        exact Block.ofMap_of_rangeAt hrange

section Entries

variable {onEnd : Running → Prop} {onFault : Fault → Running → Prop} {func : Nat}

/-- An entry stub is found, or is made for the export in the block that provides the function. -/
theorem findOrMakeEntry_ensures (hsame : onEnd s)
    (hviolation : ∀ violation : Violation, violation.ofMap = false → onFault (.violation violation) s)
    (hmake : ∀ exportIndex entry, (s.code.provider func).exportOf func = .ok (exportIndex, entry) →
      (Op.during (.creatingEntryStub func)
        (createStub compiler exportIndex entry (s.code.provider func))).Ensures s
          (fun _ => onEnd) onFault) (entry : FuncExport) :
    (findOrMakeEntry compiler func entry).Ensures s (fun _ => onEnd) onFault := by
  rw [findOrMakeEntry, Op.ensures_bind, ensures_current, Op.ensures_bind, Op.ensures_ofChecked]
  split
  case h_2 violation hlookup => exact hviolation _ (ofMap_of_lazyEntry hlookup)
  split
  · exact (Op.ensures_pure _).mpr hsame
  rw [Op.ensures_bind, ensures_current, Op.ensures_bind, Op.ensures_ofChecked]
  split
  case h_2 violation hexport => exact hviolation _ (Block.ofMap_of_exportOf hexport)
  rename_i found hexport
  exact (hmake found.1 found.2 hexport).bind (fun _ _ ht => (Op.ensures_pure _).mpr ht)
    (fun _ _ ht => ht)

/-- An interpreter entry is found, or is that of a stub made for the export in the block that provides
the function. -/
theorem interpEntry_ensures (hsame : onEnd s)
    (hviolation : ∀ violation : Violation, violation.ofMap = false → onFault (.violation violation) s)
    (hmake : ∀ exportIndex entry, (s.code.provider func).exportOf func = .ok (exportIndex, entry) →
      (Op.during (.creatingEntryStub func)
        (createStub compiler exportIndex entry (s.code.provider func))).Ensures s
          (fun _ => onEnd) onFault) :
    (interpEntry compiler func).Ensures s (fun _ => onEnd) onFault := by
  have hmaking := findOrMakeEntry_ensures hsame hviolation hmake
  rw [interpEntry, Op.ensures_bind, ensures_current]
  dsimp only
  rw [Op.ensures_bind, Op.ensures_ofChecked]
  split
  case h_2 violation hexport => exact hviolation _ (Block.ofMap_of_exportOf hexport)
  split
  · rw [Op.ensures_bind, Op.ensures_ofChecked]
    split
    case h_2 violation hrange => exact hviolation _ (Block.ofMap_of_rangeAt hrange)
    exact (Op.ensures_pure _).mpr hsame
  rw [Op.ensures_bind, Op.ensures_ofChecked]
  split
  case h_2 violation hjit => exact hviolation _ (DispatchTables.ofMap_of_jitEntry hjit)
  split
  · rw [Op.ensures_bind, ensures_current, Op.ensures_bind, Op.ensures_ofChecked]
    split
    case h_2 violation hlookup => exact hviolation _ (ofMap_of_lazyEntry hlookup)
    split
    · exact (Op.ensures_pure _).mpr hsame
    · exact hmaking _
  · exact (Op.ensures_bind _ _).mpr ((Op.ensures_pure _).mpr (hmaking _))

end Entries

end Running

end CompiledCode

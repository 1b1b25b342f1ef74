import CompiledCode.Proofs.ModuleCode.Batches

/-!
# The entry stubs that have been made

Exports made on demand are sorted by function, and each refers to the interpreter entry of its
function in a block of stubs. That block may be anywhere among the blocks of the module, which
only grow at the end, so that an address which answers a function once does so as long as
nobody makes its stub anew.
-/

namespace CompiledCode

namespace ModuleCode

/-- Whether every export made on demand refers to an interpreter entry of its function. -/
structure Filed (code : ModuleCode) : Prop where
  /-- The exports are sorted by function. -/
  sorted : KeySorted (·.func) code.lazyExports
  /-- Every export refers to an interpreter entry of its function in a block of stubs. -/
  entries : ∀ lazyExport ∈ code.lazyExports, ∃ block,
    code.blocks[lazyExport.blockIndex]? = some block ∧ block.kind = .lazyStubs ∧
      InterpEntryAt block.tables.ranges lazyExport.func lazyExport.rangeIndex

/-- Whether an address is that of the interpreter entry of a function in a block of stubs. -/
def StubAddress (block : Block) (func address : Nat) : Prop :=
  block.kind = .lazyStubs ∧ ∃ range ∈ block.tables.ranges,
    range.kind = .interpEntry ∧ range.func = some func ∧ address = block.addressOf range.start

/-- Whether an export made on demand answers a function with an address. -/
def Serves (code : ModuleCode) (func address : Nat) : Prop :=
  ∃ lazyExport ∈ code.lazyExports, lazyExport.func = func ∧ ∃ block range,
    code.blocks[lazyExport.blockIndex]? = some block ∧
      block.tables.ranges[lazyExport.rangeIndex]? = some range ∧
        address = block.addressOf range.start

/-- Whether an export refers to a stub of a batch, which calls its function in a given block. -/
structure Stubbed (code : ModuleCode) (tier : Block) (lazyExport : LazyExport) (batch : StubBatch) :
    Prop where
  block : code.blocks[lazyExport.blockIndex]? = some batch.block
  enters : batch.EntersAt lazyExport.func lazyExport.rangeIndex
  requests : batch.Requests lazyExport.func
  kind : lazyExport.kind = tier.kind
  tier : batch.tier = tier

variable {code after : ModuleCode} {func address : Nat}

/-- Without any exports made on demand there is nothing to refer to. -/
theorem filed_of_nil (h : code.lazyExports = []) : code.Filed := by
  constructor
  · rw [h]
    exact List.Pairwise.nil
  · rw [h]
    exact nofun

/-- The provider of a defined function is the published tier. -/
theorem provider_of_published {tier : Block} (hpublished : code.tier2.block? = some tier)
    (hdefined : code.imports.length ≤ func) : code.provider func = tier := by
  rw [provider, if_neg (Nat.not_lt.mpr hdefined), hpublished]
  rfl

/-- The provider of a defined function is the first tier until another one is published. -/
theorem provider_of_not_published (hnone : code.tier2.block? = none)
    (hdefined : code.imports.length ≤ func) : code.provider func = code.tier1 := by
  rw [provider, if_neg (Nat.not_lt.mpr hdefined), hnone]
  rfl

/-- More blocks at the end are still referred to alike. -/
theorem getElem?_of_isPrefix {blocks more : List Block} (h : blocks <+: more) {index : Nat}
    {block : Block} (hblock : blocks[index]? = some block) : more[index]? = some block := by
  obtain ⟨hlt, rfl⟩ := List.getElem?_eq_some_iff.mp hblock
  exact List.prefix_iff_getElem?.mp h index hlt

/-- Without the last block the others are referred to alike. -/
theorem getElem?_dropLast_of_ne {blocks : List Block} {last block : Block} {index : Nat}
    (hlast : blocks.getLast? = some last) (hblock : blocks[index]? = some block)
    (hne : block ≠ last) : blocks.dropLast[index]? = some block := by
  obtain ⟨before, rfl⟩ := List.getLast?_eq_some_iff.mp hlast
  rw [List.dropLast_concat]
  rcases Nat.lt_or_ge index before.length with hlt | hge
  · rwa [List.getElem?_append_left hlt] at hblock
  · rw [List.getElem?_append_right hge] at hblock
    have hmem := List.mem_of_getElem? hblock
    exact absurd (List.mem_singleton.mp hmem) hne

/-- More blocks at the end leave the exports where they are. -/
theorem Filed.of_isPrefix (h : code.Filed) (hblocks : code.blocks <+: after.blocks)
    (hexports : after.lazyExports = code.lazyExports) : after.Filed := by
  constructor
  · rw [hexports]
    exact h.sorted
  · intro lazyExport hmem
    rw [hexports] at hmem
    obtain ⟨block, hblock, hentry⟩ := h.entries lazyExport hmem
    exact ⟨block, getElem?_of_isPrefix hblocks hblock, hentry⟩

/-- A block that does not hold stubs is not referred to, so that it may be taken back. -/
theorem Filed.of_withoutLast (h : code.Filed) {last : Block}
    (hlast : code.blocks.getLast? = some last) (hkind : last.kind ≠ .lazyStubs)
    (hblocks : after.blocks = code.blocks.dropLast)
    (hexports : after.lazyExports = code.lazyExports) : after.Filed := by
  constructor
  · rw [hexports]
    exact h.sorted
  · intro lazyExport hmem
    rw [hexports] at hmem
    obtain ⟨block, hblock, hstubs, hentry⟩ := h.entries lazyExport hmem
    refine ⟨block, ?_, hstubs, hentry⟩
    rw [hblocks]
    exact getElem?_dropLast_of_ne hlast hblock (fun heq => hkind (heq ▸ hstubs))

/-- The exports after the first stub of a function are those before and the new one. -/
theorem perm_exports_withStub (h : code.Filed) (kind : BlockKind) {stub : NewStub} {tier : Block}
    (hstub : stub.For code func tier) :
    (code.withStub func kind stub).lazyExports.Perm
      ({ func, blockIndex := code.blocks.length, rangeIndex := stub.rangeIndex, kind } ::
        code.lazyExports) :=
  List.perm_insertIdx _ _ (place_le_of_searchKey_vacant h.sorted hstub.vacant)

/-- An export whose stub is in a new block is filed with the others. -/
theorem Filed.insert (h : code.Filed) {stubs : Block} {position rangeIndex : Nat} {kind : BlockKind}
    (hvacant : searchKey (·.func) code.lazyExports func = .vacant position)
    (hkind : stubs.kind = .lazyStubs) (hentry : InterpEntryAt stubs.tables.ranges func rangeIndex)
    (hblocks : after.blocks = code.blocks ++ [stubs])
    (hexports : after.lazyExports = code.lazyExports.insertIdx position
      { func, blockIndex := code.blocks.length, rangeIndex, kind }) : after.Filed := by
  constructor
  · rw [hexports]
    exact h.sorted.insertIdx hvacant
  · intro lazyExport hmem
    rw [hexports] at hmem
    rw [hblocks]
    have hperm := List.perm_insertIdx ({ func, blockIndex := code.blocks.length, rangeIndex, kind } : LazyExport)
      code.lazyExports (place_le_of_searchKey_vacant h.sorted hvacant)
    rcases List.mem_cons.mp (hperm.subset hmem) with rfl | hold
    · exact ⟨stubs, List.getElem?_concat_length, hkind, hentry⟩
    · obtain ⟨block, hblock, hentry⟩ := h.entries lazyExport hold
      exact ⟨block, getElem?_of_isPrefix (List.prefix_append _ _) hblock, hentry⟩

/-- The first stub of a function is filed with those of other functions. -/
theorem Filed.withStub (h : code.Filed) {kind : BlockKind} {stub : NewStub} {tier : Block}
    (hstub : stub.For code func tier) : (code.withStub func kind stub).Filed :=
  h.insert hstub.vacant hstub.kind ⟨stub.range, hstub.range, hstub.entry, hstub.func⟩ rfl rfl

/-- Exports that become others one by one are for the same functions if each of them is. -/
theorem funcs_eq_of_forall₂ {becomes : LazyExport → LazyExport → Prop} {before after : List LazyExport}
    (h : List.Forall₂ becomes before after)
    (hfunc : ∀ old new, becomes old new → new.func = old.func) :
    after.map (·.func) = before.map (·.func) := by
  induction h with
  | nil => rfl
  | cons hhead _ ih => rw [List.map_cons, List.map_cons, ih, hfunc _ _ hhead]

/-- An export that others have become one by one comes from one of them. -/
theorem exists_of_mem_forall₂ {becomes : LazyExport → LazyExport → Prop}
    {before after : List LazyExport} (h : List.Forall₂ becomes before after) {new : LazyExport}
    (hmem : new ∈ after) : ∃ old ∈ before, becomes old new := by
  induction h with
  | nil => contradiction
  | cons hhead _ ih =>
    rcases List.mem_cons.mp hmem with rfl | hrest
    · exact ⟨_, List.mem_cons_self, hhead⟩
    · obtain ⟨old, hold, hbecomes⟩ := ih hrest
      exact ⟨old, List.mem_cons_of_mem _ hold, hbecomes⟩

/-- Exports for the same functions are sorted alike. -/
theorem keySorted_of_funcs_eq {before after : List LazyExport}
    (hfuncs : after.map (·.func) = before.map (·.func)) (hsorted : KeySorted (·.func) before) :
    KeySorted (·.func) after := by
  have hkeys := List.pairwise_map.mpr hsorted
  rw [← hfuncs] at hkeys
  exact List.pairwise_map.mp hkeys

section stubbed

variable {tier : Block} {lazyExport : LazyExport} {batch : StubBatch} {made : Option StubBatch}

/-- With more blocks at the end, an export refers to the same stub. -/
theorem Stubbed.of_isPrefix (h : code.Stubbed tier lazyExport batch)
    (hblocks : code.blocks <+: after.blocks) : after.Stubbed tier lazyExport batch :=
  { h with block := getElem?_of_isPrefix hblocks h.block }

/-- The exports after the first stub of a function are those before and one that refers to the stub. -/
theorem AddsStub.stubbed_or_mem {compiler : StubCompiler} (h : code.AddsStub compiler func batch after)
    (hsorted : KeySorted (·.func) code.lazyExports) (hmem : lazyExport ∈ after.lazyExports) :
    lazyExport.func = func ∧ after.Stubbed (code.provider func) lazyExport batch ∨
      lazyExport ∈ code.lazyExports := by
  obtain ⟨position, rangeIndex, hvacant, henters, hexports⟩ := h.exports
  obtain ⟨_, _, -, -, hcontent⟩ := h.content
  have hblocks : after.blocks = code.blocks ++ [batch.block] := (congrArg ModuleCode.blocks hcontent :)
  rw [hexports] at hmem
  have hperm := List.perm_insertIdx { func, blockIndex := code.blocks.length, rangeIndex
                                      kind := batch.tier.kind : LazyExport } code.lazyExports
    (place_le_of_searchKey_vacant hsorted hvacant)
  refine (List.mem_cons.mp (hperm.subset hmem)).imp_left ?_
  rintro rfl
  exact ⟨rfl,
    { block := by rw [hblocks, List.getElem?_concat_length]
      enters := henters
      requests := h.requests
      kind := congrArg Block.kind h.tier
      tier := h.tier }⟩

/-- The first stub of a function is filed in its batch. -/
theorem Filed.addsStub {compiler : StubCompiler} (h : code.Filed)
    (hadds : code.AddsStub compiler func batch after) : after.Filed := by
  obtain ⟨position, rangeIndex, hvacant, henters, hexports⟩ := hadds.exports
  obtain ⟨_, _, -, -, hcontent⟩ := hadds.content
  exact h.insert hvacant hadds.madeBy.houses.kind (exists_of_entryIndex? henters)
    (congrArg ModuleCode.blocks hcontent :) hexports

/-- Exports of the first tier refer to the stubs of a batch once they have moved to it, and other exports
are what they were. -/
theorem exists_of_moved {tier1Kind : BlockKind} {index : Nat}
    (hexports : List.Forall₂ (LazyExport.MovedTo tier1Kind index made) code.lazyExports
      after.lazyExports)
    (hmade : ∀ batch ∈ made, after.blocks[index]? = some batch.block)
    (hmem : lazyExport ∈ after.lazyExports) :
    ∃ old ∈ code.lazyExports, old.func = lazyExport.func ∧
      (old.kind = tier1Kind ∧ (∃ batch ∈ made, after.Stubbed batch.tier lazyExport batch) ∨
        old.kind ≠ tier1Kind ∧ lazyExport = old) := by
  obtain ⟨old, hold, hmoved⟩ := exists_of_mem_forall₂ hexports hmem
  refine ⟨old, hold, hmoved.func_eq.symm, ?_⟩
  rw [LazyExport.MovedTo] at hmoved
  split at hmoved
  · rename_i hfirst
    obtain ⟨batch, hbatch, rangeIndex, hrequests, henters, rfl⟩ := hmoved
    exact .inl ⟨hfirst, batch, hbatch,
      { block := hmade batch hbatch
        enters := henters
        requests := hrequests
        kind := rfl
        tier := rfl }⟩
  · rename_i hother
    exact .inr ⟨hother, hmoved⟩

/-- Exports are filed once those of the first tier have moved to a batch. -/
theorem Filed.moved (h : code.Filed) {tier1Kind : BlockKind} {index : Nat}
    (hexports : List.Forall₂ (LazyExport.MovedTo tier1Kind index made) code.lazyExports
      after.lazyExports)
    (hblocks : code.blocks <+: after.blocks)
    (hmade : ∀ batch ∈ made, after.blocks[index]? = some batch.block ∧ batch.block.kind = .lazyStubs) :
    after.Filed := by
  constructor
  · exact keySorted_of_funcs_eq (funcs_eq_of_forall₂ hexports fun _ _ => (·.func_eq)) h.sorted
  · intro lazyExport hmem
    obtain ⟨old, hold, -, ⟨-, batch, hbatch, hstubbed⟩ | ⟨-, rfl⟩⟩ :=
      exists_of_moved hexports (fun batch hbatch => (hmade batch hbatch).1) hmem
    · exact ⟨batch.block, hstubbed.block, (hmade batch hbatch).2, exists_of_entryIndex? hstubbed.enters⟩
    · obtain ⟨block, hblock, hentry⟩ := h.entries lazyExport hold
      exact ⟨block, getElem?_of_isPrefix hblocks hblock, hentry⟩

end stubbed

/-- What is looked up for a function among the exports answers it. -/
theorem serves_of_lazyEntry (h : code.lazyEntry func = .ok (some address)) :
    code.Serves func address := by
  rw [lazyEntry] at h
  split at h
  · cases h
  · rename_i index lazyExport hfound
    split at h
    · contradiction
    · rename_i block hblock
      rw [Block.rangeAt] at h
      split at h
      · rename_i range hrange
        cases h
        have hmem := mem_of_findKey? hfound
        exact ⟨lazyExport, hmem, key_of_findKey? hfound, block, range, hblock, hrange, rfl⟩
      · contradiction

/-- Looking for an entry stub among exports that are filed finds one, or a place for one. -/
theorem Filed.lazyEntry_eq (h : code.Filed) (func : Nat) :
    (∃ address, code.lazyEntry func = .ok (some address)) ∨ code.lazyEntry func = .ok none ∧
      ∃ position, searchKey (·.func) code.lazyExports func = .vacant position := by
  rw [lazyEntry]
  cases hfound : findKey? (·.func) code.lazyExports func with
  | none => exact .inr ⟨rfl, vacant_of_findKey? hfound⟩
  | some found =>
    obtain ⟨block, hblock, -, range, hrange, -⟩ := h.entries found.2 (mem_of_findKey? hfound)
    refine .inl ⟨block.addressOf range.start, ?_⟩
    dsimp only
    rw [hblock]
    dsimp only
    rw [Block.rangeAt_eq_ok hrange]
    rfl

/-- With more blocks at the end and more exports, a function is still answered alike. -/
theorem Serves.mono (h : code.Serves func address) (hblocks : code.blocks <+: after.blocks)
    (hexports : code.lazyExports ⊆ after.lazyExports) : after.Serves func address := by
  obtain ⟨lazyExport, hmem, hfunc, block, range, hblock, hrange, haddress⟩ := h
  exact ⟨lazyExport, hexports hmem, hfunc, block, range, getElem?_of_isPrefix hblocks hblock, hrange,
    haddress⟩

/-- A function is answered with one address. -/
theorem Serves.unique {other : Nat} (h : code.Serves func address) (h' : code.Serves func other)
    (hfiled : code.Filed) : address = other := by
  obtain ⟨first, hfirst, hfunc, block, range, hblock, hrange, rfl⟩ := h
  obtain ⟨second, hsecond, hfunc', block', range', hblock', hrange', rfl⟩ := h'
  obtain rfl := hfiled.sorted.eq_of_mem hfirst hsecond (hfunc.trans hfunc'.symm)
  obtain rfl := Option.some.inj (hblock.symm.trans hblock')
  obtain rfl := Option.some.inj (hrange.symm.trans hrange')
  rfl

/-- A function is answered with the address of its interpreter entry in a block of stubs. -/
theorem Serves.stubAddress (h : code.Serves func address) (hfiled : code.Filed) :
    ∃ block ∈ code.blocks, StubAddress block func address := by
  obtain ⟨lazyExport, hmem, rfl, block, range, hblock, hrange, rfl⟩ := h
  obtain ⟨stubs, hstubs, hkind, entry, hentry, hinterp, hfunc⟩ := hfiled.entries lazyExport hmem
  obtain rfl := Option.some.inj (hblock.symm.trans hstubs)
  obtain rfl := Option.some.inj (hrange.symm.trans hentry)
  exact ⟨block, List.mem_of_getElem? hblock, hkind, range, List.mem_of_getElem? hrange, hinterp, hfunc,
    rfl⟩

end ModuleCode

end CompiledCode

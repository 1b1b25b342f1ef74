import CompiledCode.Proofs.ModuleCode.Batches
import CompiledCode.Proofs.ModuleCode.Create
import CompiledCode.Proofs.Shifting
import CompiledCode.Stubs.Layout

/-!
# What is known of the code of stubs

Batches of stubs share segments, so that all but the first one of a segment start somewhere inside of
it. Their tables are moved there once, when they are placed, and program counters are looked up by
their offset in the segment. What is known of a program counter in a batch is therefore what the
compiler's own tables say of its offset in the batch, moved to where the batch starts.
-/

namespace CompiledCode

/-- What is known of a place in housed stubs is what their own tables say, moved to where the block
starts; behind the stubs, and where offsets take more than 32 bits, nothing is known. -/
theorem Block.Houses.factsAt {block : Block} {stubs : CompiledStubs} (h : block.Houses stubs)
    (offset : Nat) :
    block.factsAt (block.base + offset) =
      if offset < stubs.code.length ∧ block.start + offset < UInt32.size then
        (stubs.tables.factsAt offset).shift block.start
      else {} := by
  have hlength : block.length = stubs.code.length := by
    rw [Block.length, h.stop, Nat.add_sub_cancel_left]
  have hoffset : block.base + offset - block.segment.base = offset + block.start := by
    rw [Block.base]
    omega
  have hinside : (block.base ≤ block.base + offset ∧ block.base + offset < block.base + block.length) ↔
      offset < stubs.code.length := by omega
  rw [Block.factsAt_eq, hoffset, h.tables, CodeTables.factsAt_shift, Nat.add_comm offset]
  exact if_congr (and_congr_left' hinside) rfl rfl

namespace Running

/-- Searching tables commutes with moving the code. For any tables and any distance, what is known of
a moved offset is what was known of the offset, with every offset in it moved by the same distance,
and nothing is known below the distance. The tables are in order if they were, exports and functions
stay, and two moves are one by both distances. Hence, wherever entry stubs are placed in a segment,
each program counter in their block is known for what the compiler's own tables say of it. -/
theorem searches_follow_the_code :
    (∀ (tables : CodeTables) (distance : Nat),
      (∀ offset, (tables.shift distance).factsAt (offset + distance) =
        (tables.factsAt offset).shift distance) ∧
      (∀ offset < distance, (tables.shift distance).factsAt offset = {}) ∧
      (tables.shift distance).disorder? = tables.disorder? ∧
      (tables.shift distance).exports = tables.exports ∧
      (tables.shift distance).funcs = tables.funcs ∧
      ∀ further, (tables.shift distance).shift further = tables.shift (distance + further)) ∧
    ∀ (compiler : StubCompiler) (requests : List StubRequest) (tier : Block) (s t : Running)
      (index : Nat) (entries : List StubEntries),
      createStubs compiler requests tier s = .ok (index, entries) t →
      ∃ stubs block, compiler.compile tier requests = .ok stubs ∧
        t.code.blocks[index]? = some block ∧ block.kind = .lazyStubs ∧
        block.length = stubs.code.length ∧
        ∀ offset, block.factsAt (block.base + offset) =
          if offset < stubs.code.length ∧ block.start + offset < UInt32.size then
            (stubs.tables.factsAt offset).shift block.start
          else {} := by
  refine ⟨fun tables distance => ⟨tables.factsAt_shift distance,
    fun _ => tables.factsAt_shift_of_lt distance, tables.disorder?_shift distance, rfl, rfl,
    tables.shift_shift distance⟩, fun compiler requests tier s t index entries hcreate => ?_⟩
  obtain ⟨batch, rfl, rfl, -, rfl, hadds⟩ := createStubs_adds.of_ok hcreate
  obtain ⟨_, _, -, -, hcontent⟩ := hadds.content
  have hblocks : t.code.blocks = s.code.blocks ++ [batch.block] :=
    (congrArg ModuleCode.blocks hcontent :)
  have hhouses := hadds.madeBy.houses
  refine ⟨batch.stubs, batch.block, hadds.madeBy.compiled, ?_, hhouses.kind, ?_, hhouses.factsAt⟩
  · rw [hblocks, List.getElem?_concat_length]
  · rw [Block.length, hhouses.stop, Nat.add_sub_cancel_left]

end Running

/-- A stub that calls its function, with a place before the call at which its frame is not set up. -/
def CompiledStubs.calling : CompiledStubs where
  code := List.replicate 16 0x90
  tables :=
    { ranges := [⟨.interpEntry, some 1, 0, 16, 0⟩]
      callSites := [⟨8, .func, 0⟩]
      trapSites := [⟨4, .stackOverflow, 0⟩]
      stackMaps := [⟨8, 2, [1]⟩]
      tryNotes := [⟨4, 8, 12, 0⟩]
      unwindInfos := [⟨0, .restoreFpRa⟩, ⟨4, .normal⟩] }

/-- The stub that is placed second in a segment starts a page on, and so does what is known of it. -/
theorem Running.searches_follow_the_second_stub :
    ∃ (s t : Running) (entries : List StubEntries) (block : Block),
      createStubs (StubLayout.compiler { explicit := some .calling })
        [{ func := 1, exportIndex := 0, callee := 0x2000 }] ModuleParts.oneImport.tier1 s =
          .ok (3, entries) t ∧
      t.code.blocks[3]? = some block ∧ block.start = 4096 ∧
      block.factsAt (block.base + 8) =
        { range := some ⟨.interpEntry, some 1, 4096, 4112, 4096⟩
          callSite := some ⟨4104, .func, 0⟩
          stackMap := some ⟨4104, 2, [1]⟩
          tryNote := some ⟨4100, 4104, 4108, 0⟩ } ∧
      (block.factsAt (block.base + 3)).unwindInfo = some ⟨4096, .restoreFpRa⟩ := by
  let compiler : StubCompiler := StubLayout.compiler { explicit := some .calling }
  let tier1 : Block := ModuleParts.oneImport.tier1
  let make := createStubs compiler [{ func := 1, exportIndex := 0, callee := 0x2000 }] tier1
  have hends : (ModuleCode.create { mode := .tiering } .empty .oneImport).succeeds {}
      (fun code engine => make.succeeds { engine, code } fun _ s =>
        make.succeeds s fun result t =>
          result.1 = 3 ∧ (t.code.blocks[3]?.map (·.start)) = some 4096) = true := by
    decide +kernel
  obtain ⟨code, engine, -, hends⟩ := Op.exists_of_succeeds hends
  obtain ⟨_, s, -, hends⟩ := Op.exists_of_succeeds hends
  obtain ⟨⟨index, entries⟩, t, hmake, hends⟩ := Op.exists_of_succeeds hends
  obtain ⟨rfl, hthere⟩ := of_decide_eq_true hends
  obtain ⟨stubs, block, hcompiled, hblock, -, -, hfacts⟩ :=
    searches_follow_the_code.2 _ _ _ _ _ _ _ hmake
  obtain rfl : CompiledStubs.calling = stubs := Except.ok.inj hcompiled
  have hstart : block.start = 4096 := by
    rw [hblock] at hthere
    exact Option.some.inj hthere
  rw [hstart] at hfacts
  exact ⟨s, t, entries, block, hmake, hblock, hstart, hfacts 8, congrArg (·.unwindInfo) (hfacts 3)⟩

end CompiledCode

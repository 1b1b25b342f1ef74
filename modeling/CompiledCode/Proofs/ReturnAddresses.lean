import CompiledCode.Block.Lookup
import CompiledCode.Proofs.Image.Check

/-!
# Return addresses

Tables are checked to have all their offsets in the code or right at its end, which the last
instruction returns to if it is a call. A block on the other hand contains the program counters up to
its end and not the end itself. So what is recorded for a return address is found in every block that
the code is built into, except for a return address at the very end of the block, where nothing is.
-/

namespace CompiledCode

namespace CodeTables

variable {tables : CodeTables} {length : Nat}

/-- Offsets that are in bounds are in the code or at its end. -/
theorem offset_le_of_boundsFault? (h : tables.boundsFault? length = none) {offset : Nat}
    (hin : offset ∈ tables.looseOffsets) : offset ≤ length := by
  rw [boundsFault?] at h
  split at h
  · contradiction
  · split at h
    · contradiction
    · rename_i hoffsets
      have hfit := List.find?_eq_none.mp hoffsets offset hin
      rw [decide_eq_true_eq] at hfit
      exact Nat.le_of_not_lt hfit

/-- The offsets that are checked on their own are those of all entries other than code ranges. -/
theorem mem_looseOffsets {offset : Nat} : offset ∈ tables.looseOffsets ↔
    (∃ site ∈ tables.callSites, site.returnOffset = offset) ∨
    (∃ site ∈ tables.trapSites, site.offset = offset) ∨
    (∃ map ∈ tables.stackMaps, map.offset = offset) ∨
    (∃ info ∈ tables.unwindInfos, info.offset = offset) ∨
    ∃ note ∈ tables.tryNotes,
      offset = note.start ∨ offset = note.stop ∨ offset = note.landingPad := by
  simp [looseOffsets]

/-- Offsets move with the code. -/
theorem looseOffsets_shift (tables : CodeTables) (distance : Nat) :
    (tables.shift distance).looseOffsets = tables.looseOffsets.map (· + distance) := by
  simp only [looseOffsets, shift, List.map_append, List.map_map, List.map_flatMap, List.flatMap_map]
  rfl

end CodeTables

namespace Block

/-- Whether a block is compiled code, placed in a segment of its own or made somewhere in one that it
shares with others, and bound or not. -/
inductive BuiltFrom (compiled : CompiledBlock) : Block → Prop where
  | placed {plan : PatchPlan} {symbols : SymbolTable} {shared : Option Block} {block : Block}
      {memory after : Memory}
      (hplace : place compiled plan symbols shared memory = .ok block after) :
      BuiltFrom compiled block
  | made {kind : BlockKind} {segment : Segment} {start : Nat} {funcs : FuncSpan} {block : Block}
      {memory after : Memory}
      (hmake : make kind segment start (start + compiled.code.length)
        ({ compiled.tables with funcs }.shift start) memory = .ok block after) :
      BuiltFrom compiled block
  | bound {block bound : Block} {owner : Owner} {serial : Nat} (hbuilt : BuiltFrom compiled block)
      (hbind : block.bind owner serial = .ok bound) : BuiltFrom compiled bound

/-- Whether the tables of a block are in order, with every offset in the code or at its end. -/
structure Bounded (block : Block) : Prop where
  inOrder : block.tables.disorder? = none
  offsets : ∀ offset ∈ block.tables.looseOffsets, block.start ≤ offset ∧ offset ≤ block.stop

variable {compiled : CompiledBlock} {block : Block}

/-- A block that is made has the bounds and the tables that it is made of. -/
theorem make_bounds (kind : BlockKind) (segment : Segment) (start stop : Nat) (tables : CodeTables)
    (memory : Memory) :
    (make kind segment start stop tables).Ensures memory
      (fun block _ => block.start = start ∧ block.stop = stop ∧ block.tables = tables)
      (fun _ _ => True) :=
  (make_ensures ..).mono
    (fun _ _ hmade => by
      obtain ⟨rfl, -⟩ := assemble_eq_ok hmade.1
      exact ⟨rfl, rfl, rfl⟩)
    fun _ _ _ => trivial

/-- A block that is placed has the bounds and the tables of the code. -/
theorem place_bounds (compiled : CompiledBlock) (plan : PatchPlan) (symbols : SymbolTable)
    (shared : Option Block) (memory : Memory) :
    (place compiled plan symbols shared).Ensures memory
      (fun block _ =>
        block.start = 0 ∧ block.stop = compiled.code.length ∧ block.tables = compiled.tables)
      (fun _ _ => True) := by
  refine (Op.ensures_true _ _).during.bind (fun segment m _ => ?_) (fun _ _ _ => trivial)
  refine (make_bounds ..).bind (fun block m' hblock => ?_) (fun _ _ _ => trivial)
  split
  · exact (Op.ensures_pure _).mpr hblock
  · exact (Op.ensures_pure _).mpr hblock

/-- Code with tables in order and in bounds is built into blocks with such tables. -/
theorem BuiltFrom.bounded (h : block.BuiltFrom compiled)
    (hinOrder : compiled.tables.disorder? = none)
    (hinBounds : compiled.tables.boundsFault? compiled.code.length = none) : block.Bounded := by
  induction h with
  | placed hplace =>
    obtain ⟨hstart, hstop, htables⟩ := (Op.ensures_iff_of_ok hplace).mp (place_bounds ..)
    refine ⟨htables ▸ hinOrder, fun offset hin => ?_⟩
    rw [htables] at hin
    rw [hstart, hstop]
    exact ⟨Nat.zero_le _, CodeTables.offset_le_of_boundsFault? hinBounds hin⟩
  | made hmake =>
    obtain ⟨hstart, hstop, htables⟩ := (Op.ensures_iff_of_ok hmake).mp (make_bounds ..)
    refine ⟨?_, fun offset hin => ?_⟩
    · rw [htables, CodeTables.disorder?_shift]
      exact hinOrder
    · rw [htables, CodeTables.looseOffsets_shift, List.mem_map] at hin
      obtain ⟨inner, hinner, rfl⟩ := hin
      have hle := CodeTables.offset_le_of_boundsFault? hinBounds hinner
      rw [hstart, hstop]
      omega
  | bound _ hbind ih =>
    rw [bind_eq_ok hbind]
    exact ⟨ih.inOrder, ih.offsets⟩

namespace Bounded

variable {offset : Nat}

/-- The address of an offset is turned back into the offset, unless that is at the end of the
block. -/
theorem offsetOf?_addressOf (h : block.Bounded) (hin : offset ∈ block.tables.looseOffsets)
    (hword : offset < UInt32.size) :
    block.offsetOf? (block.addressOf offset) =
      if offset = block.stop then none else some offset := by
  obtain ⟨hfrom, hto⟩ := h.offsets offset hin
  rw [offsetOf?, contains, addressOf, base, length, Nat.add_sub_cancel_left]
  by_cases hend : offset = block.stop
  · rw [if_pos hend, if_neg]
    simp only [Bool.and_eq_true, decide_eq_true_eq]
    omega
  · rw [if_neg hend, if_pos]
    simp only [Bool.and_eq_true, decide_eq_true_eq]
    omega

/-- An entry for a return address is found at that address, unless that is at the end of the
block. -/
theorem bind_addressOf_eq {α : Type} (h : block.Bounded) {keyOf : α → Nat} {entries : List α}
    {entry : α} (hin : keyOf entry ∈ block.tables.looseOffsets)
    (hwords : ∀ offset ∈ block.tables.looseOffsets, offset < UInt32.size)
    (hsorted : KeySorted keyOf entries) (hentry : entry ∈ entries) :
    ((block.offsetOf? (block.addressOf (keyOf entry))).bind fun offset =>
        (findKey? keyOf entries offset).map (·.2)) =
      if keyOf entry = block.stop then none else some entry := by
  rw [h.offsetOf?_addressOf hin (hwords _ hin)]
  split
  · rfl
  · exact (map_findKey?_eq_some_iff hsorted).mpr ⟨hentry, rfl⟩

end Bounded

/-- What is recorded for a return address is found there in every block that the code is built into:
the call, the references that are live, and a handler for the end of a try body. A return address at
the end of the block is the one exception: nothing is found there. -/
theorem return_addresses_are_found_before_end (hbuilt : block.BuiltFrom compiled)
    (hinOrder : compiled.tables.disorder? = none)
    (hinBounds : compiled.tables.boundsFault? compiled.code.length = none)
    (hwords : ∀ offset ∈ block.tables.looseOffsets, offset < UInt32.size) :
    (∀ site ∈ block.tables.callSites, block.callSite? (block.addressOf site.returnOffset) =
      if site.returnOffset = block.stop then none else some site) ∧
    (∀ map ∈ block.tables.stackMaps, block.stackMap? (block.addressOf map.offset) =
      if map.offset = block.stop then none else some map) ∧
    ∀ note ∈ block.tables.tryNotes, note.start < note.stop →
      ((block.tryNote? (block.addressOf note.stop)).isSome = true ↔ note.stop ≠ block.stop) := by
  have hbounded := hbuilt.bounded hinOrder hinBounds
  have hsorted := CodeTables.sorted_of_disorder? hbounded.inOrder
  refine ⟨fun site hsite => ?_, fun map hmap => ?_, fun note hnote hcovers => ?_⟩
  · exact hbounded.bind_addressOf_eq (CodeTables.mem_looseOffsets.mpr (.inl ⟨site, hsite, rfl⟩))
      hwords hsorted.callSites hsite
  · exact hbounded.bind_addressOf_eq
      (CodeTables.mem_looseOffsets.mpr (.inr (.inr (.inl ⟨map, hmap, rfl⟩))))
      hwords hsorted.stackMaps hmap
  · have hin : note.stop ∈ block.tables.looseOffsets := CodeTables.mem_looseOffsets.mpr <|
      .inr (.inr (.inr (.inr ⟨note, hnote, .inr (.inl rfl)⟩)))
    rw [tryNote?, hbounded.offsetOf?_addressOf hin (hwords _ hin)]
    by_cases hend : note.stop = block.stop
    · rw [if_pos hend]
      exact iff_of_false Bool.false_ne_true (not_not_intro hend)
    · rw [if_neg hend, Option.bind_some, CodeTables.tryNote?, List.find?_isSome]
      exact iff_of_true ⟨note, hnote, by simp [TryNote.covers, hcovers]⟩ hend

end Block

/-- A function that starts with a call, out of a try body that has nothing else in it. -/
def CompiledBlock.calling (rest : Bytes) : CompiledBlock where
  kind := .baselineTier
  code := [0xe8, 1, 0, 0, 0] ++ rest
  tables :=
    { funcs := { first := 0, stop := 1 }
      ranges := [⟨.function, some 0, 0, 5 + rest.length, 0⟩]
      callSites := [⟨5, .func, 7⟩]
      stackMaps := [⟨5, 2, [1]⟩]
      tryNotes := [⟨0, 5, 0, 16⟩] }

namespace Block

/-- If there is an instruction to return to then the call, its stack map and the handler are found. -/
theorem return_addresses_are_found_before_end_of_calling :
    ∃ block after, place (.calling [0xc3]) {} .empty none {} = .ok block after ∧
      block.callSite? (block.addressOf 5) = some ⟨5, .func, 7⟩ ∧
      block.stackMap? (block.addressOf 5) = some ⟨5, 2, [1]⟩ ∧
      (block.tryNote? (block.addressOf 5)).isSome = true := by
  have hends : (place (.calling [0xc3]) {} .empty none).succeeds {} (fun block _ =>
      decide (block.stop = 6 ∧ block.tables = (CompiledBlock.calling [0xc3]).tables)) = true := by
    decide +kernel
  obtain ⟨block, after, hplace, htest⟩ := Op.exists_of_succeeds hends
  obtain ⟨hstop, htables⟩ := of_decide_eq_true htest
  obtain ⟨hcallSites, hstackMaps, htryNotes⟩ := return_addresses_are_found_before_end
    (.placed hplace) (by decide) (by decide) (by rw [htables]; decide)
  rw [htables, hstop] at hcallSites hstackMaps htryNotes
  exact ⟨block, after, hplace, hcallSites _ List.mem_cons_self, hstackMaps _ List.mem_cons_self,
    (htryNotes _ List.mem_cons_self (by decide)).mpr (by decide)⟩

/-- If the call is the last instruction then its tables pass the checks, and neither the call nor its
stack map nor the handler is found. -/
theorem last_call_is_not_found :
    (CompiledBlock.calling []).tables.disorder? = none ∧
    (CompiledBlock.calling []).tables.boundsFault? (CompiledBlock.calling []).code.length = none ∧
    ∃ block after, place (.calling []) {} .empty none {} = .ok block after ∧
      ⟨5, .func, 7⟩ ∈ block.tables.callSites ∧ block.callSite? (block.addressOf 5) = none ∧
      ⟨5, 2, [1]⟩ ∈ block.tables.stackMaps ∧ block.stackMap? (block.addressOf 5) = none ∧
      ⟨0, 5, 0, 16⟩ ∈ block.tables.tryNotes ∧ block.tryNote? (block.addressOf 5) = none := by
  have hends : (place (.calling []) {} .empty none).succeeds {} (fun block _ =>
      decide (
        ⟨5, .func, 7⟩ ∈ block.tables.callSites ∧ block.callSite? (block.addressOf 5) = none ∧
        ⟨5, 2, [1]⟩ ∈ block.tables.stackMaps ∧ block.stackMap? (block.addressOf 5) = none ∧
        ⟨0, 5, 0, 16⟩ ∈ block.tables.tryNotes ∧
        block.tryNote? (block.addressOf 5) = none)) = true := by
    decide +kernel
  obtain ⟨block, after, hplace, htest⟩ := Op.exists_of_succeeds hends
  exact ⟨by decide, by decide, block, after, hplace, of_decide_eq_true htest⟩

end Block

end CompiledCode

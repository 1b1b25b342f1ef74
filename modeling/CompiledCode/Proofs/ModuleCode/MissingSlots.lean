import CompiledCode.Proofs.ModuleCode.Batches

/-!
# Functions without a slot

Dispatch tables have slots for the functions that a module starts out with, while the code ranges of a
tier, or of stubs, may name any function. Pointing the tables at a tier stops at the first code range
that is for a function without a slot, and for nothing else. By then the tables lead to the code ranges
before it.
-/

namespace CompiledCode

/-- The function whose slot leads to a code range, if there is to be one. -/
def CodeRange.slot? (range : CodeRange) : Option Nat :=
  if range.kind = .function ∨ range.kind = .jitEntry then range.func else none

/-- Whether the functions that code is to be led to are among the first ones. -/
def CompiledBlock.Slotted (compiled : CompiledBlock) (count : Nat) : Prop :=
  ∀ range ∈ compiled.tables.ranges, ∀ func ∈ range.slot?, func < count

/-- Whether the functions that a compiler makes jit entries for are among the first ones. -/
def StubCompiler.Slotted (compiler : StubCompiler) (count : Nat) : Prop :=
  ∀ tier requests stubs, compiler.compile tier requests = .ok stubs →
    ∀ range ∈ stubs.tables.ranges, ∀ func ∈ DispatchTables.jitFunc? range, func < count

namespace DispatchTables

/-- Whether tables have been pointed at a tier, and offered the jit entries of stubs that were made for
it, up to a code range for a function that they have no slot for. -/
inductive LedShort (before : DispatchTables) (tier2 : Block) (stubs : List Block)
    (after : DispatchTables) : Prop where
  /-- The code range is one of the tier. -/
  | tier {done rest : List CodeRange} {range : CodeRange} {func : Nat}
      (hranges : tier2.tables.ranges = done ++ range :: rest) (hslot : range.slot? = some func)
      (hnone : before.size ≤ func) (hled : before.LedTo tier2 done after)
  /-- The code range is a jit entry of the stubs. -/
  | stubs {block : Block} {range : CodeRange} {func : Nat} (hstubs : block ∈ stubs)
      (hrange : range ∈ block.tables.ranges) (hslot : jitFunc? range = some func)
      (hnone : before.size ≤ func) (hled : before.LedTo tier2 tier2.tables.ranges after)

/-- A tiering slot is overwritten unless there is no such slot. -/
theorem setTiering_stops (index target : Nat) (before : DispatchTables) :
    (setTiering index target).Ensures before (fun _ _ => index < before.size)
      (fun _ after => after = before ∧ before.size ≤ index) := by
  rw [setTiering, Op.ensures_bind, Op.ensures_get, Op.ensures_bind, Op.ensures_require]
  split
  · rename_i hindex
    split
    · exact (Op.ensures_set _).mpr (of_decide_eq_true hindex)
    · exact (Op.ensures_pure _).mpr (of_decide_eq_true hindex)
  · rename_i hindex
    exact ⟨rfl, Nat.le_of_not_lt (by simpa using hindex)⟩

/-- A jit entry is offered unless there is no such slot. -/
theorem setJitEntryIfEmpty_stops (index : Nat) {target : Nat} (htarget : target ≠ 0)
    (before : DispatchTables) :
    (setJitEntryIfEmpty index target).Ensures before (fun _ _ => index < before.size)
      (fun _ after => after = before ∧ before.size ≤ index) := by
  rw [setJitEntryIfEmpty, Op.ensures_bind, Op.ensures_require, if_pos (by simpa using htarget),
    Op.ensures_bind, Op.ensures_get]
  split
  · rename_i hslot
    exact (Op.ensures_violate _).mpr ⟨rfl, List.getElem?_eq_none_iff.mp hslot⟩
  · rename_i hslot
    rw [Op.ensures_bind, Op.ensures_set, Op.ensures_pure]
    exact (List.getElem?_eq_some_iff.mp hslot).1
  · rename_i hslot
    exact (Op.ensures_pure _).mpr (List.getElem?_eq_some_iff.mp hslot).1

end DispatchTables

namespace Running

open DispatchTables

variable {s : Running} {block tier2 : Block}

/-- Offering the entry of a code range stops if there is no slot for it. -/
theorem offer_stops (hbase : 0 < block.segment.base) (func offset : Nat) (before : DispatchTables) :
    (do let _ ← setJitEntryIfEmpty func (block.addressOf offset) : Op DispatchTables Unit).Ensures
      before (fun _ _ => func < before.size) (fun _ after => after = before ∧ before.size ≤ func) :=
  (setJitEntryIfEmpty_stops func (Nat.ne_of_gt (Nat.add_pos_left hbase offset)) before).bind
    (fun _ _ h => (Op.ensures_pure _).mpr h) (fun _ _ h => h)

/-- The dispatch tables are pointed at a code range unless it is for a function without a slot. -/
theorem redirectRange_stops (hbase : 0 < block.segment.base) (range : CodeRange)
    (before : DispatchTables) :
    (redirectRange block range).Ensures before
      (fun _ _ => ∀ func ∈ range.slot?, func < before.size)
      (fun _ after => after = before ∧ ∃ func, range.slot? = some func ∧ before.size ≤ func) := by
  have hslot {func : Nat} (hfunc : range.func = some func)
      (hkind : range.kind = .function ∨ range.kind = .jitEntry) : range.slot? = some func := by
    rw [CodeRange.slot?, if_pos hkind, hfunc]
  rw [redirectRange]
  split
  · rename_i func hfunc hkind
    rw [hslot hfunc (.inl hkind)]
    exact (setTiering_stops ..).mono (fun _ _ h _ hother => Option.some.inj hother ▸ h)
      (fun _ _ h => ⟨h.1, func, rfl, h.2⟩)
  · rename_i func hfunc hkind
    rw [hslot hfunc (.inr hkind)]
    exact (offer_stops hbase ..).mono (fun _ _ h _ hother => Option.some.inj hother ▸ h)
      (fun _ _ h => ⟨h.1, func, rfl, h.2⟩)
  · rename_i hfunction hjit
    refine (Op.ensures_pure _).mpr fun func hfunc => ?_
    rw [CodeRange.slot?] at hfunc
    split at hfunc
    · rename_i hkind
      exact (hkind.elim (hfunction func hfunc) (hjit func hfunc)).elim
    · contradiction

/-- The jit entry of a code range is offered unless it is for a function without a slot. -/
theorem offerRange_stops (hbase : 0 < block.segment.base) (range : CodeRange)
    (before : DispatchTables) :
    (offerRange block range).Ensures before (fun _ _ => True)
      (fun _ after => after = before ∧ ∃ func, jitFunc? range = some func ∧ before.size ≤ func) := by
  rw [offerRange]
  split
  · rename_i func hfunc hkind
    exact (offer_stops hbase ..).mono (fun _ _ _ => trivial)
      (fun _ _ h => ⟨h.1, func, by rw [jitFunc?, if_pos hkind, hfunc], h.2⟩)
  · exact (Op.ensures_pure _).mpr trivial

/-- Pointing the dispatch tables at a tier stops at functions without a slot alone. -/
theorem forM_redirectRange_stops (hbase : 0 < tier2.segment.base) :
    (tier2.tables.ranges.forM fun range => onDispatch (redirectRange tier2 range)).Ensures s
      (fun _ t => s.code.dispatch.LedTo tier2 tier2.tables.ranges t.code.dispatch ∧
        ∀ range ∈ tier2.tables.ranges, ∀ func ∈ range.slot?, func < s.code.dispatch.size)
      (fun _ t => ∀ stubs, s.code.dispatch.LedShort tier2 stubs t.code.dispatch) := by
  refine (Op.Ensures.forM_stops
    (motive := fun done (t : Running) => s.code.dispatch.LedTo tier2 done t.code.dispatch ∧
      ∀ range ∈ done, ∀ func ∈ range.slot?, func < s.code.dispatch.size)
    (fun done range _ (t : Running) => s.code.dispatch.LedTo tier2 done t.code.dispatch ∧
      ∃ func, range.slot? = some func ∧ s.code.dispatch.size ≤ func)
    (fun done range t ht => ?_) ⟨.refl fun _ => rfl, List.forall_mem_nil _⟩).mono (fun _ _ h => h)
      (fun _ t ht stubs => ?_)
  · obtain ⟨hled, hslots⟩ := ht
    refine (onDispatch_content ((redirectRange_ledTo tier2 range _).and
      (redirectRange_stops hbase range _))).mono (fun _ u hu => ?_) (fun _ u hu => ?_)
    · obtain ⟨⟨hmore, hnamed⟩, -⟩ := hu
      rw [hled.size] at hnamed
      exact ⟨hled.trans hmore, List.forall_mem_append.mpr
        ⟨hslots, List.forall_mem_singleton.mpr hnamed⟩⟩
    · obtain ⟨⟨-, hsame, func, hslot, hnone⟩, -⟩ := hu
      rw [hled.size] at hnone
      exact ⟨hsame ▸ hled, func, hslot, hnone⟩
  · obtain ⟨done, range, rest, hranges, hled, func, hslot, hnone⟩ := ht
    exact .tier hranges hslot hnone hled

/-- Redirecting calls to a tier and to its stubs stops at functions without a slot alone. -/
theorem redirect_stops (hbase : 0 < tier2.segment.base) {stubIndex : Option Nat}
    (hstubs : ∀ index ∈ stubIndex, ∃ stubs,
      s.code.blocks[index]? = some stubs ∧ 0 < stubs.segment.base) :
    (redirect tier2 stubIndex).Ensures s
      (fun _ _ => ∀ range ∈ tier2.tables.ranges, ∀ func ∈ range.slot?, func < s.code.dispatch.size)
      (fun _ t => s.code.dispatch.LedShort tier2 (stubIndex.bind (s.code.blocks[·]?)).toList
        t.code.dispatch) := by
  refine ((forM_redirectRange_stops hbase).and (forM_onDispatch_content _ _)).bind (fun _ t ht => ?_)
    (fun _ _ ht => ht.1 _)
  obtain ⟨⟨hled, hslots⟩, dispatch, hcontent⟩ := ht
  cases stubIndex with
  | none => exact (Op.ensures_pure _).mpr hslots
  | some index =>
    obtain ⟨stubs, hindex, hstubs⟩ := hstubs index rfl
    have hblocks : t.code.blocks = s.code.blocks := (congrArg ModuleCode.blocks hcontent :)
    rw [Op.ensures_bind, ensures_current, hblocks, hindex, Option.bind_some, hindex]
    refine (Op.Ensures.forM (motive := fun (u : Running) =>
      s.code.dispatch.LedTo tier2 tier2.tables.ranges u.code.dispatch) (fun range hin u hu => ?_)
        hled).mono (fun _ _ _ => hslots) (fun _ _ h => h)
    refine (onDispatch_content ((offerRange_offered hin _).and (offerRange_stops hstubs range _))).mono
      (fun _ v hv => ?_) (fun _ v hv => ?_)
    · have hboth := hu.trans (hv.1.1.ledTo fun _ => (rfl : bodyOf? [] _ = none))
      rwa [List.append_nil] at hboth
    · obtain ⟨⟨-, hsame, func, hslot, hnone⟩, -⟩ := hv
      rw [hu.size] at hnone
      exact .stubs List.mem_cons_self hin hslot hnone (hsame ▸ hu)

end Running

/-- Nothing stops short of code that names functions with a slot alone. -/
theorem DispatchTables.LedShort.not_slotted {before after : DispatchTables} {compiler : StubCompiler}
    {compiled : CompiledBlock} {tier2 : Block} {made : Option StubBatch}
    (h : before.LedShort tier2 (made.map (·.block)).toList after) (htables : tier2.tables = compiled.tables)
    (hmade : ∀ batch ∈ made, batch.MadeBy compiler) (hcompiled : compiled.Slotted before.size) :
    ¬ compiler.Slotted before.size := by
  intro hcompiler
  cases h with
  | tier hranges hslot hnone hled =>
    refine Nat.not_lt_of_le hnone (hcompiled _ ?_ _ hslot)
    rw [← htables, hranges]
    exact List.mem_append_right _ List.mem_cons_self
  | @stubs block range func hstubs hrange hslot hnone hled =>
    obtain ⟨batch, hbatch, rfl⟩ := Option.map_eq_some_iff.mp (Option.mem_toList.mp hstubs)
    have hbatch := hmade batch hbatch
    rw [hbatch.houses.tables] at hrange
    obtain ⟨original, horiginal, rfl⟩ := List.mem_map.mp hrange
    exact Nat.not_lt_of_le hnone (hcompiler _ _ _ hbatch.compiled original horiginal func hslot)

end CompiledCode

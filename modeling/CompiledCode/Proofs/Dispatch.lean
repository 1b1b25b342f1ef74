import CompiledCode.Dispatch
import CompiledCode.Image.Check
import CompiledCode.Proofs.Op

/-!
# Filling dispatch tables

Nothing but a violation keeps a slot from being filled, and it is never one of the violations of
maps of regions. Tables are filled without any violation if every function that the code ranges name
has a slot, and no two jit entries are for the same one.

Calls are led to the last function body that the code ranges of a block have for a function, and the
functions with a jit entry are those that some code range is a jit entry of.
-/

namespace CompiledCode.DispatchTables

variable {tables : DispatchTables}

/-- An offer writes the slot if it is there and empty, and else leaves everything as it is. -/
theorem setJitEntryIfEmpty_writes (index target : Nat) (tables : DispatchTables) :
    (setJitEntryIfEmpty index target).Ensures tables
      (fun entry after => target ≠ 0 ∧ ∃ previous, tables.jit[index]? = some previous ∧
        (previous = 0 ∧ entry = target ∧ after = { tables with jit := tables.jit.set index target } ∨
          previous ≠ 0 ∧ entry = previous ∧ after = tables))
      (fun fault after => (target = 0 ∨ tables.jit[index]? = none) ∧ fault = .violation .unstated ∧
        after = tables) := by
  rw [setJitEntryIfEmpty, Op.ensures_bind, Op.ensures_require]
  split
  case isFalse htarget => exact ⟨.inl (by simpa using htarget), rfl, rfl⟩
  rename_i htarget
  rw [Op.ensures_bind, Op.ensures_get]
  rw [bne_iff_ne] at htarget
  split
  · rename_i hslot
    exact (Op.ensures_violate _).mpr ⟨.inr hslot, rfl, rfl⟩
  · rename_i hslot
    rw [Op.ensures_bind, Op.ensures_set, Op.ensures_pure]
    exact ⟨htarget, 0, hslot, .inl ⟨rfl, rfl, rfl⟩⟩
  · rename_i existing hsome hslot
    rw [Op.ensures_pure]
    exact ⟨htarget, existing, hslot, .inr ⟨hsome, rfl, rfl⟩⟩

/-- An offered jit entry is taken, or there is another one, or there is no such slot. -/
theorem setJitEntryIfEmpty_ensures (index target : Nat) (tables : DispatchTables) :
    (setJitEntryIfEmpty index target).Ensures tables
      (fun _ after => ∃ jit, jit.length = tables.jit.length ∧ after = { tables with jit })
      (fun fault _ => fault.isViolation = true ∧ fault.ofMap = false) := by
  refine (setJitEntryIfEmpty_writes index target tables).mono (fun entry after hafter => ?_)
    (fun fault _ hfault => ?_)
  · obtain ⟨-, _, -, ⟨-, -, rfl⟩ | ⟨-, -, rfl⟩⟩ := hafter
    · exact ⟨_, List.length_set, rfl⟩
    · exact ⟨after.jit, rfl, rfl⟩
  · rw [hfault.2.1]
    exact ⟨rfl, rfl⟩

/-- A tiering slot is overwritten, or there is no such slot. -/
theorem setTiering_ensures (index target : Nat) (tables : DispatchTables) :
    (setTiering index target).Ensures tables
      (fun _ after => index < tables.size ∧ ∃ tiering, after = { tables with tiering } ∧
        (tables.mode = .tiering → tiering = tables.tiering.set index target) ∧
        (tables.mode ≠ .tiering → tiering = tables.tiering))
      (fun fault _ => fault.ofMap = false) := by
  rw [setTiering, Op.ensures_bind, Op.ensures_get, Op.ensures_bind, Op.ensures_require]
  split
  case isFalse => rfl
  rename_i hindex
  split
  · rename_i hmode
    rw [Op.ensures_set]
    exact ⟨of_decide_eq_true hindex, _, rfl, fun _ => rfl, fun hother => absurd hmode hother⟩
  · rename_i hmode
    rw [Op.ensures_pure]
    exact ⟨of_decide_eq_true hindex, _, rfl, fun hother => absurd hother hmode, fun _ => rfl⟩

/-- An install writes the slot if there is one, and is violated if the slot held another entry. -/
theorem setJitEntry_writes (index target : Nat) (tables : DispatchTables) :
    (setJitEntry index target).Ensures tables
      (fun _ after => ∃ previous, tables.jit[index]? = some previous ∧
        (previous = 0 ∨ previous = target) ∧
        after = { tables with jit := tables.jit.set index target })
      (fun fault after =>
        (tables.jit[index]? = none ∧ fault = .violation .unstated ∧ after = tables) ∨
        ∃ previous, tables.jit[index]? = some previous ∧ ¬ (previous = 0 ∨ previous = target) ∧
          fault = .violation (.jitEntryOverwritten index) ∧
          after = { tables with jit := tables.jit.set index target }) := by
  rw [setJitEntry, Op.ensures_bind, Op.ensures_get]
  split
  · rename_i hslot
    exact (Op.ensures_violate _).mpr (.inl ⟨hslot, rfl, rfl⟩)
  · rename_i previous hslot
    rw [Op.ensures_bind, Op.ensures_set, Op.ensures_require]
    split
    · rename_i hfree
      exact ⟨previous, hslot, by simpa using hfree, rfl⟩
    · rename_i htaken
      exact .inr ⟨previous, hslot, by simpa using htaken, rfl, rfl⟩

/-- A jit entry is installed, or replaces another one, or there is no such slot. -/
theorem setJitEntry_ensures (index target : Nat) (tables : DispatchTables) :
    (setJitEntry index target).Ensures tables
      (fun _ after => index < tables.size ∧ after = { tables with jit := tables.jit.set index target })
      (fun fault _ => fault.ofMap = false) := by
  refine (setJitEntry_writes index target tables).mono (fun _ after hafter => ?_)
    (fun fault _ hfault => ?_)
  · obtain ⟨_, hslot, -, rfl⟩ := hafter
    exact ⟨(List.getElem?_eq_some_iff.mp hslot).1, rfl⟩
  · obtain ⟨-, rfl, -⟩ | ⟨_, -, -, rfl, -⟩ := hfault <;> rfl

/-- Filling the slots of one code range violates nothing that maps of regions look after. -/
theorem fillRange_ensures (block : Block) (range : CodeRange) (tables : DispatchTables) :
    (fillRange block range).Ensures tables (fun _ _ => True) (fun fault _ => fault.ofMap = false) := by
  rw [fillRange]
  split
  · exact (setTiering_ensures _ _ _).mono (fun _ _ _ => trivial) (fun _ _ h => h)
  · exact (setJitEntry_ensures _ _ _).mono (fun _ _ _ => trivial) (fun _ _ h => h)
  · exact (Op.ensures_pure _).mpr trivial

/-- Filling new tables violates nothing that maps of regions look after. -/
theorem ofMap_of_ofBlocks {mode : CompileMode} {shared tier1 : Block} {fault : Fault}
    (h : ofBlocks mode shared tier1 = .error fault) : fault.ofMap = false := by
  have hfill (tables : DispatchTables) : (do
      shared.tables.ranges.forM (fillRange shared)
      tier1.tables.ranges.forM (fillRange tier1) : Op DispatchTables Unit).Ensures tables
      (fun _ _ => True) (fun fault _ => fault.ofMap = false) :=
    (Op.Ensures.forM (fun range _ t _ => fillRange_ensures shared range t) trivial).bind
      (fun _ _ _ => Op.Ensures.forM (fun range _ t _ => fillRange_ensures tier1 range t) trivial)
      (fun _ _ h => h)
  rw [ofBlocks] at h
  split at h
  · contradiction
  · rename_i herror
    cases h
    exact (hfill _).of_error herror

/-- The function whose slot for a jit entry a code range fills, if it fills one. -/
def jitFunc? (range : CodeRange) : Option Nat :=
  if range.kind = .jitEntry then range.func else none

theorem jitFuncs_eq_filterMap (tables : CodeTables) :
    tables.jitFuncs = tables.ranges.filterMap jitFunc? := by
  simp only [CodeTables.jitFuncs, List.filterMap_filter, decide_eq_true_eq]
  rfl

/-- The slots that a code range is for are filled if they exist and hold no jit entry yet. -/
theorem fillRange_proceeds (block : Block) {range : CodeRange}
    (hnamed : ∀ func ∈ range.func, func < tables.size)
    (hvacant : ∀ func ∈ jitFunc? range, tables.jit[func]? = some 0) :
    (fillRange block range).Ensures tables
      (fun _ after => after.size = tables.size ∧
        ∀ other, jitFunc? range ≠ some other → after.jit[other]? = tables.jit[other]?)
      (fun _ _ => False) := by
  rw [fillRange]
  split
  · rename_i func hfunc hkind
    rw [setTiering, Op.ensures_bind, Op.ensures_get, Op.ensures_bind, Op.ensures_require,
      if_pos (decide_eq_true (hnamed func hfunc))]
    split
    · exact (Op.ensures_set _).mpr ⟨rfl, fun _ _ => rfl⟩
    · exact (Op.ensures_pure _).mpr ⟨rfl, fun _ _ => rfl⟩
  · rename_i func hfunc hkind
    have hslot : jitFunc? range = some func := by rw [jitFunc?, if_pos hkind, hfunc]
    rw [setJitEntry, Op.ensures_bind, Op.ensures_get, hvacant func hslot]
    dsimp only
    rw [Op.ensures_bind, Op.ensures_set, Op.ensures_require]
    refine ⟨List.length_set, fun other hother => List.getElem?_set_ne ?_⟩
    rintro rfl
    exact hother hslot
  · exact (Op.ensures_pure _).mpr ⟨rfl, fun _ _ => rfl⟩

/-- The slots that code ranges are for are filled if they exist and each gets one jit entry at most;
slots that are left for later stay vacant. -/
theorem fillRanges_proceeds (block : Block) {ranges : List CodeRange} (later : List Nat)
    (hnamed : ∀ range ∈ ranges, ∀ func ∈ range.func, func < tables.size)
    (hnodup : (ranges.filterMap jitFunc? ++ later).Nodup)
    (hvacant : ∀ func ∈ ranges.filterMap jitFunc? ++ later, tables.jit[func]? = some 0) :
    (ranges.forM (fillRange block)).Ensures tables
      (fun _ after => after.size = tables.size ∧ ∀ func ∈ later, after.jit[func]? = some 0)
      (fun _ _ => False) := by
  induction ranges generalizing tables with
  | nil => exact (Op.ensures_pure _).mpr ⟨rfl, hvacant⟩
  | cons range rest ih =>
    change (fillRange block range >>= fun _ => rest.forM (fillRange block)).Ensures _ _ _
    have hown : ∀ func ∈ jitFunc? range, func ∈ (range :: rest).filterMap jitFunc? ++ later :=
      fun func hfunc => List.mem_append_left _
        (List.mem_filterMap.mpr ⟨range, List.mem_cons_self, hfunc⟩)
    have hsublist : (rest.filterMap jitFunc? ++ later).Sublist
        ((range :: rest).filterMap jitFunc? ++ later) :=
      ((List.sublist_cons_self range rest).filterMap _).append_right _
    refine (fillRange_proceeds block (hnamed range List.mem_cons_self)
      fun func hfunc => hvacant func (hown func hfunc)).bind (fun _ after hafter => ?_) (fun _ _ h => h)
    obtain ⟨hsize, hother⟩ := hafter
    refine (ih ?_ (hnodup.sublist hsublist) ?_).mono (fun _ t ht => ⟨ht.1.trans hsize, ht.2⟩)
      (fun _ _ h => h)
    · rw [hsize]
      exact fun other hin => hnamed other (List.mem_cons_of_mem _ hin)
    · intro func hfunc
      rw [hother func fun hsame => ?_]
      · exact hvacant func (hsublist.subset hfunc)
      · rw [List.filterMap_cons_some hsame, List.cons_append] at hnodup
        exact (List.nodup_cons.mp hnodup).1 hfunc

/-- New tables are filled if every function has a slot and no two jit entries compete for one. -/
theorem exists_ofBlocks_eq_ok (mode : CompileMode) {shared tier1 : Block}
    (hshared : ∀ func ∈ shared.tables.namedFuncs,
      func < max shared.tables.funcs.stop tier1.tables.funcs.stop)
    (htier1 : ∀ func ∈ tier1.tables.namedFuncs,
      func < max shared.tables.funcs.stop tier1.tables.funcs.stop)
    (hnodup : (shared.tables.jitFuncs ++ tier1.tables.jitFuncs).Nodup) :
    ∃ filled, ofBlocks mode shared tier1 = .ok filled := by
  generalize hcount : max shared.tables.funcs.stop tier1.tables.funcs.stop = count at hshared htier1
  have hsize : (empty mode count).size = count := List.length_replicate
  have hranges : ∀ {tables : CodeTables}, (∀ func ∈ tables.namedFuncs, func < count) →
      ∀ range ∈ tables.ranges, ∀ func ∈ range.func, func < count :=
    fun h range hin func hfunc => h func (List.mem_append_left _ (List.mem_filterMap.mpr ⟨range, hin, hfunc⟩))
  have hvacant : ∀ func ∈ shared.tables.jitFuncs ++ tier1.tables.jitFuncs,
      (empty mode count).jit[func]? = some 0 := by
    intro func hfunc
    have hlt : func < count := by
      rcases List.mem_append.mp hfunc with hin | hin
      · obtain ⟨range, hrange, hown⟩ := List.mem_filterMap.mp hin
        exact hranges hshared range (List.mem_filter.mp hrange).1 func hown
      · obtain ⟨range, hrange, hown⟩ := List.mem_filterMap.mp hin
        exact hranges htier1 range (List.mem_filter.mp hrange).1 func hown
    exact List.getElem?_replicate_of_lt hlt
  rw [jitFuncs_eq_filterMap, jitFuncs_eq_filterMap] at hnodup hvacant
  have hfill : (do
      shared.tables.ranges.forM (fillRange shared)
      tier1.tables.ranges.forM (fillRange tier1) : Op DispatchTables Unit).Ensures
      (empty mode count) (fun _ _ => True) (fun _ _ => False) := by
    refine (fillRanges_proceeds shared _ (hsize.symm ▸ hranges hshared) hnodup hvacant).bind
      (fun _ middle hmiddle => ?_) (fun _ _ h => h)
    refine (fillRanges_proceeds tier1 [] ?_ ?_ ?_).mono (fun _ _ _ => trivial) (fun _ _ h => h)
    · rw [hmiddle.1, hsize]
      exact hranges htier1
    · rw [List.append_nil]
      exact hnodup.sublist (List.sublist_append_right _ _)
    · rw [List.append_nil]
      exact hmiddle.2
  rw [ofBlocks, hcount]
  split
  · exact ⟨_, rfl⟩
  · rename_i herror
    exact (hfill.of_error herror).elim

/-- The last function body that code ranges have for a function. -/
def bodyOf? (ranges : List CodeRange) (func : Nat) : Option CodeRange :=
  ranges.reverse.find? fun range => range.kind = .function && range.func = some func

/-- Later code ranges come first. -/
theorem bodyOf?_append (ranges more : List CodeRange) (func : Nat) :
    bodyOf? (ranges ++ more) func = (bodyOf? more func).or (bodyOf? ranges func) := by
  rw [bodyOf?, List.reverse_append, List.find?_append]
  rfl

/-- A function has a last body if it has any. -/
theorem exists_bodyOf?_eq_some {ranges : List CodeRange} {range : CodeRange} {func : Nat}
    (hin : range ∈ ranges) (hkind : range.kind = .function) (hfunc : range.func = some func) :
    ∃ body, bodyOf? ranges func = some body := by
  refine Option.isSome_iff_exists.mp (List.find?_isSome.mpr ⟨range, List.mem_reverse.mpr hin, ?_⟩)
  rw [hkind, hfunc]
  simp

/-- Whether tables have a tiering slot for every function in tiering mode. -/
def Complete (tables : DispatchTables) : Prop :=
  tables.mode = .tiering → tables.tiering.length = tables.size

/-- Whether tables have the mode and the slots of others, whatever these hold. -/
structure SameSlots (before after : DispatchTables) : Prop where
  mode : after.mode = before.mode
  size : after.size = before.size
  length : after.tiering.length = before.tiering.length

section SameSlots

variable {before after : DispatchTables}

/-- Tables have the slots that they had as long as every change leaves them so. -/
theorem SameSlots.trans {last : DispatchTables} (h : before.SameSlots after)
    (hlast : after.SameSlots last) : before.SameSlots last :=
  ⟨hlast.mode.trans h.mode, hlast.size.trans h.size, hlast.length.trans h.length⟩

/-- A slot for every function stays one for every function. -/
theorem SameSlots.complete (h : before.SameSlots after) (hcomplete : before.Complete) :
    after.Complete := by
  intro hmode
  rw [h.length, h.size]
  exact hcomplete (h.mode ▸ hmode)

/-- Pointing a tiering slot at something leaves the slots as they are. -/
theorem setTiering_sameSlots (index target : Nat) (before : DispatchTables) :
    (setTiering index target).Ensures before (fun _ after => before.SameSlots after)
      (fun _ _ => True) := by
  refine (setTiering_ensures ..).mono (fun _ after hafter => ?_) (fun _ _ _ => trivial)
  obtain ⟨-, tiering, rfl, hset, hsame⟩ := hafter
  refine ⟨rfl, rfl, ?_⟩
  by_cases hmode : before.mode = .tiering
  · rw [hset hmode, List.length_set]
  · rw [hsame hmode]

/-- Offering a jit entry leaves the slots as they are. -/
theorem setJitEntryIfEmpty_sameSlots (index target : Nat) (before : DispatchTables) :
    (setJitEntryIfEmpty index target).Ensures before (fun _ after => before.SameSlots after)
      (fun _ _ => True) := by
  refine (setJitEntryIfEmpty_ensures ..).mono (fun _ after hafter => ?_) (fun _ _ _ => trivial)
  obtain ⟨jit, hjit, rfl⟩ := hafter
  exact ⟨rfl, hjit, rfl⟩

/-- Whether tables come of others when one of their slots is filled by whoever can. -/
inductive Filled (before after : DispatchTables) : Prop where
  /-- Calls of a function are led elsewhere. -/
  | tiering {index target : Nat} (hend : setTiering index target before = .ok () after)
  /-- A function gets a jit entry. -/
  | jit {index target : Nat} (hend : setJitEntry index target before = .ok () after)
  /-- A function is offered a jit entry. -/
  | offer {index target entry : Nat} (hend : setJitEntryIfEmpty index target before = .ok entry after)

/-- Filling slots makes none. -/
theorem Filled.sameSlots (h : before.Filled after) : before.SameSlots after := by
  cases h with
  | tiering hend => exact (setTiering_sameSlots ..).of_ok hend
  | jit hend =>
    obtain ⟨-, rfl⟩ := (setJitEntry_ensures ..).of_ok hend
    exact ⟨rfl, List.length_set, rfl⟩
  | offer hend => exact (setJitEntryIfEmpty_sameSlots ..).of_ok hend

end SameSlots

/-- Whether tables are as before, but for jit entries and for calls that lead to the function bodies
that code ranges of a block have. -/
structure LedTo (before : DispatchTables) (block : Block) (ranges : List CodeRange)
    (after : DispatchTables) : Prop extends SameSlots before after where
  named : ∀ func body, bodyOf? ranges func = some body → func < before.size
  slots : before.mode = .tiering → ∀ func < before.tiering.length, after.tiering[func]? =
    ((bodyOf? ranges func).map fun body => block.addressOf body.tierEntry).or before.tiering[func]?

section LedTo

variable {before middle after : DispatchTables} {block : Block} {ranges more : List CodeRange}

/-- Calls lead where they led as long as jit entries alone change. -/
theorem LedTo.of_jit {jit : List Nat} (hjit : jit.length = before.jit.length)
    (hranges : ∀ func, bodyOf? ranges func = none) :
    before.LedTo block ranges { before with jit } where
  mode := rfl
  size := hjit
  length := rfl
  named func body hbody := by
    rw [hranges] at hbody
    contradiction
  slots _ func _ := by
    rw [hranges]
    rfl

/-- Calls lead where they led as long as nothing changes. -/
theorem LedTo.refl (hranges : ∀ func, bodyOf? ranges func = none) : before.LedTo block ranges before :=
  .of_jit rfl hranges

/-- Calls are led to the code ranges of a block one after the other. -/
theorem LedTo.trans (h : before.LedTo block ranges middle) (h' : middle.LedTo block more after) :
    before.LedTo block (ranges ++ more) after where
  mode := h'.mode.trans h.mode
  size := h'.size.trans h.size
  length := h'.length.trans h.length
  named func body hbody := by
    rw [bodyOf?_append] at hbody
    cases hlater : bodyOf? more func with
    | some last => exact h.size ▸ h'.named func last hlater
    | none =>
      rw [hlater] at hbody
      exact h.named func body hbody
  slots hmode func hfunc := by
    rw [h'.slots (h.mode.trans hmode) func (h.length.symm ▸ hfunc), h.slots hmode func hfunc,
      bodyOf?_append]
    cases bodyOf? more func <;> rfl

/-- Where a function has a body, the tables that calls were led to it by have its entry. -/
theorem LedTo.tiering_eq (h : before.LedTo block ranges after) (hmode : before.mode = .tiering)
    (hcomplete : before.Complete) {func : Nat} {body : CodeRange}
    (hbody : bodyOf? ranges func = some body) :
    after.tiering[func]? = some (block.addressOf body.tierEntry) := by
  have hslot : func < before.tiering.length := hcomplete hmode ▸ h.named func body hbody
  rw [h.slots hmode func hslot, hbody]
  rfl

/-- A code range that is not the body of a function does not count as one. -/
theorem bodyOf?_singleton_eq_none {range : CodeRange}
    (h : ∀ func, range.func = some func → range.kind ≠ .function) (func : Nat) :
    bodyOf? [range] func = none := by
  refine List.find?_eq_none.mpr fun other hother => ?_
  obtain rfl := List.mem_singleton.mp (List.mem_reverse.mp hother)
  simp only [Bool.and_eq_true, decide_eq_true_eq, not_and]
  exact fun hkind hfunc => h func hfunc hkind

/-- A function body that a tiering slot is overwritten for is where calls lead then. -/
theorem setTiering_ledTo {range : CodeRange} {func : Nat} (hfunc : range.func = some func)
    (hkind : range.kind = .function) (before : DispatchTables) :
    (setTiering func (block.addressOf range.tierEntry)).Ensures before
      (fun _ after => before.LedTo block [range] after) (fun _ _ => True) := by
  refine ((setTiering_ensures ..).and (setTiering_sameSlots ..)).mono (fun _ after hafter => ?_)
    (fun _ _ _ => trivial)
  obtain ⟨⟨hindex, tiering, rfl, hset, -⟩, hslots⟩ := hafter
  have hbody (other : Nat) : bodyOf? [range] other = if other = func then some range else none := by
    rw [bodyOf?, List.reverse_singleton, List.find?_singleton, hkind, hfunc]
    simp [eq_comm]
  refine ⟨hslots, fun other body hother => ?_, fun hmode other hother => ?_⟩
  · rw [hbody] at hother
    split at hother
    · rename_i heq
      exact heq ▸ hindex
    · contradiction
  · dsimp only
    rw [hset hmode, hbody, List.getElem?_set]
    by_cases heq : func = other
    · rw [if_pos heq, if_pos (heq ▸ hother), if_pos heq.symm]
      rfl
    · rw [if_neg heq, if_neg (Ne.symm heq)]
      rfl

/-- Filling the slots of a code range leads calls to it if it is a function body. -/
theorem fillRange_ledTo (block : Block) (range : CodeRange) (before : DispatchTables) :
    (fillRange block range).Ensures before (fun _ after => before.LedTo block [range] after)
      (fun _ _ => True) := by
  rw [fillRange]
  split
  · rename_i func hfunc hkind
    exact setTiering_ledTo hfunc hkind before
  · rename_i func hfunc hkind
    refine (setJitEntry_ensures ..).mono (fun _ after hafter => ?_) (fun _ _ _ => trivial)
    rw [hafter.2]
    refine .of_jit List.length_set (bodyOf?_singleton_eq_none fun _ _ => ?_)
    simp [hkind]
  · rename_i hfunction hjit
    exact (Op.ensures_pure _).mpr (.refl (bodyOf?_singleton_eq_none hfunction))

/-- Rounds that lead calls to one code range each lead them to all. -/
theorem forM_ledTo {round : CodeRange → Op DispatchTables PUnit}
    (hround : ∀ range tables, (round range).Ensures tables
      (fun _ after => tables.LedTo block [range] after) (fun _ _ => True))
    (ranges : List CodeRange) (before : DispatchTables) :
    (ranges.forM round).Ensures before (fun _ after => before.LedTo block ranges after)
      (fun _ _ => True) := by
  refine Op.Ensures.forM_upTo (fun done range tables htables => ?_) (LedTo.refl fun _ => rfl)
  exact (hround range tables).mono (fun _ _ hafter => htables.trans hafter) (fun _ _ h => h)

end LedTo

/-- Whether a function has a jit entry. -/
def HasJitEntry (tables : DispatchTables) (func : Nat) : Prop :=
  ∃ entry, tables.jitEntry func = .ok (some entry)

/-- The jit entry of a function is what its slot holds, unless that is empty. -/
theorem jitEntry_eq_some_iff {func entry : Nat} :
    tables.jitEntry func = .ok (some entry) ↔ tables.jit[func]? = some entry ∧ entry ≠ 0 := by
  rw [jitEntry]
  split
  · rename_i hslot
    simp [hslot]
  · rename_i hslot
    rw [hslot]
    exact ⟨nofun, fun h => absurd (Option.some.inj h.1).symm h.2⟩
  · rename_i existing hnonzero hslot
    rw [hslot]
    constructor
    · rintro ⟨⟩
      exact ⟨rfl, hnonzero⟩
    · rintro ⟨⟨⟩, -⟩
      rfl

/-- A function has a jit entry if its slot is not empty. -/
theorem hasJitEntry_iff {func : Nat} :
    tables.HasJitEntry func ↔ ∃ entry, tables.jit[func]? = some entry ∧ entry ≠ 0 :=
  exists_congr fun _ => jitEntry_eq_some_iff

/-- A code range of a block gives its function a jit entry if it is one. -/
theorem fillRange_hasJitEntry {block : Block} (hbase : 0 < block.segment.base) (range : CodeRange)
    (tables : DispatchTables) :
    (fillRange block range).Ensures tables
      (fun _ after => ∀ func, after.HasJitEntry func ↔
        tables.HasJitEntry func ∨ jitFunc? range = some func)
      (fun _ _ => True) := by
  have hother {func : Nat} (hnone : jitFunc? range = none) :
      tables.HasJitEntry func ↔ tables.HasJitEntry func ∨ jitFunc? range = some func := by
    rw [hnone]
    simp
  rw [fillRange]
  split
  · rename_i own hfunc hkind
    refine (setTiering_ensures ..).mono (fun _ after hafter func => ?_) (fun _ _ _ => trivial)
    obtain ⟨-, tiering, rfl, -⟩ := hafter
    exact hother (by rw [jitFunc?, hkind, if_neg nofun])
  · rename_i own hfunc hkind
    refine (setJitEntry_ensures ..).mono (fun _ after hafter func => ?_) (fun _ _ _ => trivial)
    obtain ⟨hindex, rfl⟩ := hafter
    rw [jitFunc?, if_pos hkind, hfunc, Option.some.injEq, hasJitEntry_iff, hasJitEntry_iff,
      List.getElem?_set]
    by_cases heq : own = func
    · have hentry : block.addressOf range.start ≠ 0 := Nat.ne_of_gt (Nat.add_pos_left hbase _)
      rw [if_pos heq, if_pos (heq ▸ hindex)]
      exact ⟨fun _ => .inr heq, fun _ => ⟨_, rfl, hentry⟩⟩
    · rw [if_neg heq]
      exact (or_iff_left heq).symm
  · rename_i hfunction hjit
    refine (Op.ensures_pure _).mpr fun func => ?_
    by_cases hkind : range.kind = .jitEntry
    · have hfunc : range.func = none :=
        Option.eq_none_iff_forall_ne_some.mpr fun own hown => hjit own hown hkind
      exact hother (by rw [jitFunc?, if_pos hkind, hfunc])
    · exact hother (if_neg hkind)

/-- The code ranges of a block give jit entries to the functions that they are jit entries of. -/
theorem fillRanges_hasJitEntry {block : Block} (hbase : 0 < block.segment.base)
    (ranges : List CodeRange) (tables : DispatchTables) :
    (ranges.forM (fillRange block)).Ensures tables
      (fun _ after => ∀ func, after.HasJitEntry func ↔
        tables.HasJitEntry func ∨ func ∈ ranges.filterMap jitFunc?)
      (fun _ _ => True) := by
  refine Op.Ensures.forM_upTo
    (motive := fun done (after : DispatchTables) => ∀ func, after.HasJitEntry func ↔
      tables.HasJitEntry func ∨ func ∈ done.filterMap jitFunc?)
    (fun done range middle hmiddle => ?_) (fun func => by simp)
  refine (fillRange_hasJitEntry hbase range middle).mono (fun _ after hafter func => ?_)
    (fun _ _ h => h)
  rw [hafter func, hmiddle func, List.filterMap_append, List.mem_append, or_assoc]
  simp

section ofBlocks

variable {mode : CompileMode} {shared tier1 : Block}

/-- New tables are filled from the first block, and then from the other one. -/
theorem exists_of_ofBlocks (h : ofBlocks mode shared tier1 = .ok tables) :
    ∃ middle, shared.tables.ranges.forM (fillRange shared)
        (empty mode (max shared.tables.funcs.stop tier1.tables.funcs.stop)) = .ok () middle ∧
      tier1.tables.ranges.forM (fillRange tier1) middle = .ok () tables := by
  rw [ofBlocks] at h
  split at h
  · rename_i after hend
    obtain rfl := Except.ok.inj h
    change EStateM.bind _ _ _ = _ at hend
    rw [EStateM.bind] at hend
    split at hend
    · rename_i middle hmiddle
      exact ⟨middle, hmiddle, hend⟩
    · contradiction
  · contradiction

/-- New tables have a tiering slot for every function in tiering mode, and lead calls to the function
bodies of the first tier then. -/
theorem tiering_of_ofBlocks (h : ofBlocks mode shared tier1 = .ok tables) :
    tables.mode = mode ∧ tables.Complete ∧
      (mode = .tiering → ∀ func body, bodyOf? tier1.tables.ranges func = some body →
        tables.tiering[func]? = some (tier1.addressOf body.tierEntry)) := by
  obtain ⟨middle, hshared, htier1⟩ := exists_of_ofBlocks h
  generalize max shared.tables.funcs.stop tier1.tables.funcs.stop = count at hshared
  have hempty : (empty mode count).Complete := by
    intro hmode
    obtain rfl : mode = .tiering := hmode
    exact List.length_replicate.trans List.length_replicate.symm
  have hmiddle := (forM_ledTo (fillRange_ledTo shared) _ _).of_ok hshared
  have hafter := (forM_ledTo (fillRange_ledTo tier1) _ _).of_ok htier1
  have hcomplete := hmiddle.complete hempty
  refine ⟨hafter.mode.trans hmiddle.mode, hafter.complete hcomplete, fun htiering func body hbody => ?_⟩
  exact hafter.tiering_eq (hmiddle.mode.trans htiering) hcomplete hbody

/-- New tables have slots for all functions of both blocks. -/
theorem size_of_ofBlocks (h : ofBlocks mode shared tier1 = .ok tables) :
    tables.size = max shared.tables.funcs.stop tier1.tables.funcs.stop := by
  obtain ⟨middle, hshared, htier1⟩ := exists_of_ofBlocks h
  have hmiddle := (forM_ledTo (fillRange_ledTo shared) _ _).of_ok hshared
  have hafter := (forM_ledTo (fillRange_ledTo tier1) _ _).of_ok htier1
  exact hafter.size.trans (hmiddle.size.trans List.length_replicate)

/-- In new tables the functions with a jit entry are those that some code range of either block is a
jit entry of. -/
theorem hasJitEntry_of_ofBlocks (h : ofBlocks mode shared tier1 = .ok tables)
    (hshared : 0 < shared.segment.base) (htier1 : 0 < tier1.segment.base) (func : Nat) :
    tables.HasJitEntry func ↔ func ∈ shared.tables.jitFuncs ++ tier1.tables.jitFuncs := by
  obtain ⟨middle, hfirst, hsecond⟩ := exists_of_ofBlocks h
  generalize max shared.tables.funcs.stop tier1.tables.funcs.stop = count at hfirst
  have hvacant : ¬ (empty mode count).HasJitEntry func := by
    intro hentry
    obtain ⟨entry, hslot, hnonzero⟩ := hasJitEntry_iff.mp hentry
    exact hnonzero (List.eq_of_mem_replicate (List.mem_of_getElem? hslot))
  have hmiddle := (fillRanges_hasJitEntry hshared _ _).of_ok hfirst func
  have hafter := (fillRanges_hasJitEntry htier1 _ _).of_ok hsecond func
  rw [hafter, hmiddle, or_iff_right hvacant, List.mem_append, jitFuncs_eq_filterMap,
    jitFuncs_eq_filterMap]

end ofBlocks

/-- A slot that there is can be read. -/
theorem exists_jitEntry_eq_ok {index : Nat} (h : index < tables.size) :
    ∃ entry, tables.jitEntry index = .ok entry := by
  rw [jitEntry, List.getElem?_eq_getElem h]
  split
  · contradiction
  · exact ⟨_, rfl⟩
  · exact ⟨_, rfl⟩

/-- Reading a slot violates nothing that maps of regions look after. -/
theorem ofMap_of_jitEntry {index : Nat} {violation : Violation}
    (h : tables.jitEntry index = .error violation) : violation.ofMap = false := by
  rw [jitEntry] at h
  split at h <;> cases h
  rfl

end CompiledCode.DispatchTables

import CompiledCode.Proofs.Dispatch

/-!
# What jit-entry slots keep

Whoever fills a jit-entry slot without a violation leaves the entry there that was there before, so
that an entry which a slot holds once is the one that it holds for good. What is new in tables that
are filled from a block are jit entries that the block has for the functions of the slots. Offering
entries changes nothing else.
-/

namespace CompiledCode

/-- Whether an address is that of a jit entry that a block has for a function. -/
def Block.JitEntryAt (block : Block) (func address : Nat) : Prop :=
  ∃ range ∈ block.tables.ranges,
    range.kind = .jitEntry ∧ range.func = some func ∧ address = block.addressOf range.start

/-- Whether an address is that of a jit entry that one of some blocks has for a function. -/
def Block.JitEntryIn (blocks : List Block) (func address : Nat) : Prop :=
  ∃ block ∈ blocks, block.JitEntryAt func address

/-- A jit entry of a block is one of all blocks. -/
theorem Block.JitEntryIn.of_mem {blocks : List Block} {block : Block} (hin : block ∈ blocks)
    {func address : Nat} (h : block.JitEntryAt func address) : JitEntryIn blocks func address :=
  ⟨block, hin, h⟩

namespace DispatchTables

/-- Whether tables keep the jit entries of others, and have no more of them than there are to have. -/
structure JitGrown (before : DispatchTables) (source : Nat → Nat → Prop) (after : DispatchTables) :
    Prop where
  kept : ∀ {func entry : Nat}, before.jit[func]? = some entry → entry ≠ 0 →
    after.jit[func]? = some entry
  gained : ∀ {func entry : Nat}, after.jit[func]? = some entry → entry ≠ 0 →
    before.jit[func]? = some entry ∨ source func entry

/-- Whether tables are as before, but for jit entries that empty slots have got. -/
structure Offered (before : DispatchTables) (source : Nat → Nat → Prop) (after : DispatchTables) :
    Prop extends JitGrown before source after where
  others : ∃ jit, jit.length = before.jit.length ∧ after = { before with jit }

variable {before middle after : DispatchTables} {source wider : Nat → Nat → Prop}

/-- Nothing is gained as long as the jit entries stay. -/
theorem JitGrown.of_jit_eq (h : after.jit = before.jit) : before.JitGrown source after where
  kept hentry _ := h ▸ hentry
  gained hentry _ := .inl (h ▸ hentry)

theorem Offered.refl (before : DispatchTables) (source : Nat → Nat → Prop) :
    before.Offered source before :=
  { JitGrown.of_jit_eq rfl with others := ⟨before.jit, rfl, rfl⟩ }

/-- Entries are kept and gained one time after another. -/
theorem JitGrown.trans (h : before.JitGrown source middle) (h' : middle.JitGrown source after) :
    before.JitGrown source after where
  kept hentry hsome := h'.kept (h.kept hentry hsome) hsome
  gained hentry hsome := (h'.gained hentry hsome).elim (fun hmiddle => h.gained hmiddle hsome) .inr

/-- There may be more entries to have. -/
theorem JitGrown.mono (h : before.JitGrown source after)
    (hwider : ∀ func entry, source func entry → wider func entry) :
    before.JitGrown wider after where
  kept := h.kept
  gained hentry hsome := (h.gained hentry hsome).imp_right (hwider _ _)

/-- There may be more entries to be offered. -/
theorem Offered.mono (h : before.Offered source after)
    (hwider : ∀ func entry, source func entry → wider func entry) : before.Offered wider after :=
  { h.toJitGrown.mono hwider with others := h.others }

/-- Offers make no slot, and take none away. -/
theorem Offered.sameSlots (h : before.Offered source after) : before.SameSlots after := by
  obtain ⟨jit, hjit, rfl⟩ := h.others
  exact ⟨rfl, hjit, rfl⟩

/-- Offers lead no calls elsewhere. -/
theorem Offered.ledTo (h : before.Offered source after) {block : Block} {ranges : List CodeRange}
    (hranges : ∀ func, bodyOf? ranges func = none) : before.LedTo block ranges after := by
  obtain ⟨jit, hjit, rfl⟩ := h.others
  exact .of_jit hjit hranges

/-- Filling a slot keeps the entries of tables unless the slot held another one. -/
theorem offered_set {index previous target : Nat} (hslot : before.jit[index]? = some previous)
    (hfree : previous = 0 ∨ previous = target) :
    before.Offered (fun func entry => func = index ∧ entry = target)
      { before with jit := before.jit.set index target } where
  kept := by
    intro func entry hentry hsome
    dsimp only
    rw [List.getElem?_set]
    split
    · rename_i heq
      subst heq
      obtain rfl := Option.some.inj (hslot.symm.trans hentry)
      rw [if_pos (List.getElem?_eq_some_iff.mp hslot).1, hfree.resolve_left hsome]
    · exact hentry
  gained := by
    intro func entry hentry hsome
    dsimp only at hentry
    rw [List.getElem?_set] at hentry
    split at hentry
    · rename_i heq
      subst heq
      rw [if_pos (List.getElem?_eq_some_iff.mp hslot).1] at hentry
      exact .inr ⟨rfl, (Option.some.inj hentry).symm⟩
    · exact .inl hentry
  others := ⟨_, List.length_set, rfl⟩

/-- An offer is answered with the entry that the slot holds from then on. -/
theorem setJitEntryIfEmpty_offered (index target : Nat) (before : DispatchTables) :
    (setJitEntryIfEmpty index target).Ensures before
      (fun entry after => entry ≠ 0 ∧ after.jit[index]? = some entry ∧
        before.Offered (fun func entry => func = index ∧ entry = target) after)
      (fun _ _ => target = 0 ∨ before.size ≤ index) := by
  refine (setJitEntryIfEmpty_writes index target before).mono (fun entry after hafter => ?_)
    (fun fault _ hfault => ?_)
  · obtain ⟨htarget, previous, hslot, ⟨rfl, rfl, rfl⟩ | ⟨hsome, rfl, rfl⟩⟩ := hafter
    · have hindex := (List.getElem?_eq_some_iff.mp hslot).1
      exact ⟨htarget, List.getElem?_set_self hindex, offered_set hslot (.inl rfl)⟩
    · exact ⟨hsome, hslot, .refl after _⟩
  · exact hfault.1.imp_right List.getElem?_eq_none_iff.mp

/-- An entry that is installed without a violation is the first one, or the one that was there. -/
theorem setJitEntry_offered (index target : Nat) (before : DispatchTables) :
    (setJitEntry index target).Ensures before
      (fun _ after => before.Offered (fun func entry => func = index ∧ entry = target) after)
      (fun _ _ => True) := by
  refine (setJitEntry_writes index target before).mono (fun _ after hafter => ?_) (fun _ _ _ => trivial)
  obtain ⟨previous, hslot, hfree, rfl⟩ := hafter
  exact offered_set hslot hfree

section Ranges

variable {block : Block} {range : CodeRange}

/-- What a slot gets from the jit entry of a function is an entry that the block has for it. -/
theorem Offered.of_range {func : Nat} (hin : range ∈ block.tables.ranges)
    (hkind : range.kind = .jitEntry) (hfunc : range.func = some func)
    (h : before.Offered
      (fun other entry => other = func ∧ entry = block.addressOf range.start) after) :
    before.Offered block.JitEntryAt after := by
  refine h.mono ?_
  rintro _ _ ⟨rfl, rfl⟩
  exact ⟨range, hin, hkind, hfunc, rfl⟩

/-- Setting a tiering slot keeps the jit entries there are. -/
theorem setTiering_jitGrown {source : Nat → Nat → Prop} (func target : Nat) (before : DispatchTables) :
    (setTiering func target).Ensures before (fun _ after => before.JitGrown source after)
      (fun _ _ => True) := by
  refine (setTiering_ensures ..).mono (fun _ after hafter => ?_) (fun _ _ _ => trivial)
  obtain ⟨-, tiering, rfl, -⟩ := hafter
  exact .of_jit_eq rfl

/-- Filling the slots that a code range is for keeps the jit entries there are. -/
theorem fillRange_jitGrown (hin : range ∈ block.tables.ranges) (before : DispatchTables) :
    (fillRange block range).Ensures before (fun _ after => before.JitGrown block.JitEntryAt after)
      (fun _ _ => True) := by
  rw [fillRange]
  split
  · exact setTiering_jitGrown ..
  · rename_i func hfunc hkind
    exact (setJitEntry_offered ..).mono
      (fun _ _ hafter => (Offered.of_range hin hkind hfunc hafter).toJitGrown) (fun _ _ h => h)
  · exact (Op.ensures_pure _).mpr (.of_jit_eq rfl)

/-- Filling tables from a block keeps the jit entries there are. -/
theorem fillRanges_jitGrown (block : Block) (before : DispatchTables) :
    (block.tables.ranges.forM (fillRange block)).Ensures before
      (fun _ after => before.JitGrown block.JitEntryAt after) (fun _ _ => True) := by
  refine Op.Ensures.forM (fun range hin middle hmiddle => ?_) (.of_jit_eq rfl)
  exact (fillRange_jitGrown hin middle).mono (fun _ _ hafter => hmiddle.trans hafter) (fun _ _ h => h)

end Ranges

end DispatchTables

end CompiledCode

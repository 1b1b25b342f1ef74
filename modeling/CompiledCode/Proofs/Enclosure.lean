import CompiledCode.Proofs.Carried
import CompiledCode.Proofs.ModuleCode.Frugal

/-!
# Code ranges inside of their block

When a block is made, the start of its first code range and the end of its last one are compared with
the bounds of the block, and the end of each range with the start of the next one. If no range ends
before it starts then these comparisons keep all the ranges in the block and apart from each other,
entries of functions point into the block or right behind it, and every range can be listed. Nothing
keeps out a range that ends before it starts: it can stick out of the block, and it cannot be listed.
-/

namespace CompiledCode

namespace Segment

variable {segment : Segment} {memory : Memory}

/-- Whether a segment has come to be in code memory. -/
inductive Live (segment : Segment) : Memory → Prop where
  /-- It was reserved to claim pieces of. -/
  | reserved {bytes : Nat} {memory after : Memory}
      (hreserve : reserve bytes memory = .ok segment after) : Live segment after
  /-- It was made for one piece of code. -/
  | placed {code : Bytes} {plan : PatchPlan} {symbols : SymbolTable} {trapHandler : Option UInt64}
      {memory after : Memory}
      (hplace : place code plan symbols trapHandler memory = .ok segment after) : Live segment after
  /-- A piece of it has been claimed. -/
  | claimed {bytes offset : Nat} {memory after : Memory} (hlive : Live segment memory)
      (hclaim : segment.claim bytes memory = .ok offset after) : Live segment after
  /-- Something else has happened to memory, and as much of the segment is in use as before. -/
  | kept {memory after : Memory} (hlive : Live segment memory)
      (hsame : segment.length after = segment.length memory) : Live segment after

/-- As much of a segment is in use as is set down for it. -/
@[simp] theorem length_setInUse (segment : Segment) (memory : Memory) (bytes : Nat) :
    segment.length (memory.setInUse segment.base bytes) = bytes :=
  if_pos rfl

/-- The capacity of a segment is what was asked for, rounded up to pages. -/
theorem obtain_capacity (bytes : Nat) :
    (obtain bytes).Ensures memory (fun segment _ => Page.roundUp bytes = .ok segment.capacity)
      (fun _ _ => True) := by
  refine obtain_ensures_of (fun _ _ => trivial) (fun hnone => hnone) fun capacity hcapacity _ => ?_
  exact (Op.ensures_true _ _).mono (fun _ _ _ => hcapacity) fun _ _ _ => trivial

/-- So is the capacity of a segment that is reserved, and nothing of it is in use. -/
theorem reserve_capacity (bytes : Nat) :
    (reserve bytes).Ensures memory
      (fun segment after => Page.roundUp bytes = .ok segment.capacity ∧ segment.length after = 0)
      (fun _ _ => True) := by
  refine (obtain_capacity bytes).bind (fun segment m hround => ?_) fun _ _ _ => trivial
  rw [Op.ensures_bind, Op.ensures_modify, Op.ensures_pure, length_setInUse]
  exact ⟨hround, rfl⟩

/-- What is in use of a segment that is made for code is what it was asked for. -/
theorem place_length_le (code : Bytes) (plan : PatchPlan) (symbols : SymbolTable)
    (trapHandler : Option UInt64) :
    (place code plan symbols trapHandler).Ensures memory
      (fun segment after => segment.length after ≤ segment.capacity) (fun _ _ => True) := by
  refine place_ensures_of (fun _ _ => trivial) (fun capacity _ => obtain_capacity capacity)
    fun capacity segment m _ hagain => ?_
  obtain ⟨-, hroom, -⟩ := Page.roundUp_eq_ok hagain
  rw [← length_setInUse segment m capacity] at hroom
  exact (segment.frugal_install _ _ _ _ _).ensures
    (fun _ _ hafter => Nat.le_trans (Nat.le_of_eq (congrFun hafter segment.base)) hroom)
    fun _ _ _ _ => trivial

/-- A claim fits into the segment. -/
theorem claim_length_le (bytes : Nat) :
    (segment.claim bytes).Ensures memory (fun _ after => segment.length after ≤ segment.capacity)
      (fun _ _ => True) := by
  refine claim_ensures_of (fun hfits => ?_) fun _ => trivial
  rw [fits, Bool.and_eq_true, decide_eq_true_eq, decide_eq_true_eq] at hfits
  rw [length_setInUse]
  omega

/-- No more of a segment is in use than there is. -/
theorem Live.length_le_capacity (h : segment.Live memory) :
    segment.length memory ≤ segment.capacity := by
  induction h with
  | reserved hreserve =>
    rw [((reserve_capacity _).of_ok hreserve).2]
    exact Nat.zero_le _
  | placed hplace => exact (Op.ensures_iff_of_ok hplace).mp (place_length_le ..)
  | claimed _ hclaim _ => exact (Op.ensures_iff_of_ok hclaim).mp (claim_length_le _)
  | kept _ hsame ih => rwa [hsame]

end Segment

/-- Every kind of range is among all kinds. -/
theorem RangeKinds.contains_all (kind : RangeKind) : RangeKinds.all.contains kind = true := by
  cases kind <;> decide

namespace Block

/-- Whether a block has all of its code ranges inside, and these apart from each other and in
order. -/
structure Encloses (block : Block) : Prop where
  within : ∀ range ∈ block.tables.ranges,
    block.start ≤ range.start ∧ range.start ≤ range.stop ∧ range.stop ≤ block.stop
  apart : block.tables.ranges.Pairwise fun a b => a.stop ≤ b.start

/-- Ranges in order, none of which ends before it starts, are inside of bounds if the first one starts
and the last one ends there. -/
theorem within_of_rangesInside {start stop : Nat} {tables : CodeTables}
    (hinOrder : tables.disorder? = none) (hinside : rangesInside start stop tables = true)
    (hforward : ∀ range ∈ tables.ranges, range.start ≤ range.stop) {range : CodeRange}
    (hin : range ∈ tables.ranges) : start ≤ range.start ∧ range.stop ≤ stop := by
  have hpairwise := CodeTables.pairwise_ranges hinOrder hforward
  have hforwards := hforward range hin
  have hsome : tables.ranges ≠ [] := List.ne_nil_of_mem hin
  obtain ⟨first, hfirst⟩ := Option.isSome_iff_exists.mp (List.isSome_head?.mpr hsome)
  obtain ⟨last, hlast⟩ := Option.isSome_iff_exists.mp (List.getLast?_isSome.mpr hsome)
  rw [rangesInside, hfirst, hlast] at hinside
  simp only [Bool.and_eq_true, decide_eq_true_eq] at hinside
  have hafterFirst : first.start ≤ range.start := by
    obtain ⟨rest, hranges⟩ := List.head?_eq_some_iff.mp hfirst
    have hends := hforward first (List.mem_of_head? hfirst)
    rw [hranges] at hin hpairwise
    rcases List.mem_cons.mp hin with rfl | hlater
    · exact Nat.le_refl _
    · exact Nat.le_trans hends ((List.pairwise_cons.mp hpairwise).1 range hlater).1
  have hbeforeLast : range.stop ≤ last.stop := by
    obtain ⟨rest, hranges⟩ := List.getLast?_eq_some_iff.mp hlast
    have hends := hforward last (List.mem_of_getLast? hlast)
    rw [hranges] at hin hpairwise
    rcases List.mem_append.mp hin with hearlier | hsame
    · exact Nat.le_trans
        ((List.pairwise_append.mp hpairwise).2.2 range hearlier last List.mem_cons_self).1 hends
    · rw [List.mem_singleton.mp hsame]
  exact ⟨Nat.le_trans hinside.1 hafterFirst, Nat.le_trans hbeforeLast hinside.2⟩

variable {block : Block}

/-- If a block has its ranges inside then the entry of a function is an address from its base to its
end. -/
theorem Encloses.funcEntry?_within (h : block.Encloses) {func address : Nat}
    (hentry : block.funcEntry? func = some address) :
    block.base ≤ address ∧ address ≤ block.base + block.length := by
  obtain ⟨range, hrange, rfl⟩ := Option.map_eq_some_iff.mp hentry
  have hin : range ∈ block.tables.ranges := by
    rw [rangeOfFunc?] at hrange
    split at hrange
    · exact List.mem_of_getElem? hrange
    · contradiction
  obtain ⟨hfrom, hforward, hto⟩ := h.within range hin
  rw [base, length, addressOf]
  omega

/-- A block that is assembled has its ranges inside if none of them ends before it starts. -/
theorem encloses_of_assemble {kind : BlockKind} {segment : Segment} {inUse start stop : Nat}
    {tables : CodeTables} (h : assemble kind segment inUse start stop tables = .ok block)
    (hforward : ∀ range ∈ block.tables.ranges, range.start ≤ range.stop) : block.Encloses := by
  obtain ⟨hinOrder, hinside⟩ := inOrder_of_assemble h
  obtain ⟨rfl, -⟩ := assemble_eq_ok h
  refine ⟨fun range hin => ?_, (CodeTables.pairwise_ranges hinOrder hforward).imp And.left⟩
  obtain ⟨hfrom, hto⟩ := within_of_rangesInside hinOrder hinside hforward hin
  exact ⟨hfrom, hforward range hin, hto⟩

/-- A block that is made has its code ranges inside and apart from each other exactly if none of them
ends before it starts, and just then every selection of them can be listed. In that case entries of
functions are addresses from the base of the block to its end. -/
theorem made_blocks_enclose_forward_ranges {kind : BlockKind} {segment : Segment} {start stop : Nat}
    {tables : CodeTables} {memory after : Memory} (hlive : segment.Live memory)
    (hmake : make kind segment start stop tables memory = .ok block after) :
    (block.Encloses ↔ ∀ range ∈ block.tables.ranges, range.start ≤ range.stop) ∧
    ((∀ memory kinds, ∃ lines, block.listing memory kinds = .ok lines) ↔
      ∀ range ∈ block.tables.ranges, range.start ≤ range.stop) ∧
    ((∀ range ∈ block.tables.ranges, range.start ≤ range.stop) →
      ∀ func address, block.funcEntry? func = some address →
        block.base ≤ address ∧ address ≤ block.base + block.length) := by
  have hassemble := ((Op.ensures_iff_of_ok hmake).mp (make_ensures ..)).1
  have hencloses := encloses_of_assemble hassemble
  have hroom : block.stop ≤ block.segment.capacity := by
    obtain ⟨rfl, -, hstop⟩ := assemble_eq_ok hassemble
    exact Nat.le_trans hstop hlive.length_le_capacity
  refine ⟨⟨fun h range hin => (h.within range hin).2.1, hencloses⟩, ⟨fun h range hin => ?_, ?_⟩,
    fun hforward func address => (hencloses hforward).funcEntry?_within⟩
  · exact (exists_listing_eq_ok_iff.mp (h memory .all) range hin (RangeKinds.contains_all _)).1
  · intro hforward memory kinds
    exact exists_listing_eq_ok_iff.mpr fun range hin _ =>
      ⟨hforward range hin, Nat.le_trans ((hencloses hforward).within range hin).2.2 hroom⟩

/-- A block of the first 32 bytes of a fresh segment, if it can be made and passes a test, is made in a
live one. -/
theorem exists_make_of_succeeds (tables : CodeTables) (test : Block → Bool)
    (h : (Segment.reserve 4096).succeeds {} (fun segment reserved =>
      (segment.claim 4096).succeeds reserved fun _ claimed =>
        (make .baselineTier segment 0 32 tables).succeeds claimed fun block _ => test block) = true) :
    ∃ segment memory block after, segment.Live memory ∧
      make .baselineTier segment 0 32 tables memory = .ok block after ∧ test block = true := by
  obtain ⟨segment, reserved, hreserve, h⟩ := Op.exists_of_succeeds h
  obtain ⟨_, claimed, hclaim, h⟩ := Op.exists_of_succeeds h
  obtain ⟨block, after, hmake, h⟩ := Op.exists_of_succeeds h
  exact ⟨segment, claimed, block, after, (Segment.Live.reserved hreserve).claimed hclaim, hmake, h⟩

/-- Two functions, with an empty range at the very end. -/
def forwardTables : CodeTables where
  funcs := { first := 0, stop := 2 }
  ranges := [⟨.function, some 0, 0, 20, 0⟩, ⟨.function, some 1, 32, 32, 32⟩]

/-- A block with an empty range at its end encloses its ranges and can be listed, and the entry of the
empty one is the end of the block. -/
theorem made_blocks_enclose_forward_ranges_of_forwardTables :
    ∃ segment memory block after, segment.Live memory ∧
      make .baselineTier segment 0 32 forwardTables memory = .ok block after ∧ block.Encloses ∧
      (∃ lines, block.listing after .all = .ok lines) ∧
      block.funcEntry? 1 = some (block.base + block.length) := by
  obtain ⟨segment, memory, block, after, hlive, hmake, htest⟩ :=
    exists_make_of_succeeds forwardTables
      (fun block => decide (block.tables = forwardTables ∧
        block.funcEntry? 1 = some (block.base + block.length))) (by decide +kernel)
  obtain ⟨htables, hentry⟩ := of_decide_eq_true htest
  obtain ⟨hencloses, hlisting, -⟩ := made_blocks_enclose_forward_ranges hlive hmake
  have hforward : ∀ range ∈ block.tables.ranges, range.start ≤ range.stop := by
    rw [htables]
    decide
  exact ⟨segment, memory, block, after, hlive, hmake, hencloses.mpr hforward,
    hlisting.mpr hforward after .all, hentry⟩

/-- A function that ends before it starts, and starts behind the end of a block of 32 bytes. -/
def invertedTables : CodeTables where
  funcs := { first := 0, stop := 1 }
  ranges := [⟨.function, some 0, 40, 4, 40⟩]

/-- A block is made although its only range is not inside. The entry of its function lies behind its
end, and it cannot be listed. -/
theorem inverted_ranges_are_accepted :
    ∃ segment memory block after, segment.Live memory ∧
      make .baselineTier segment 0 32 invertedTables memory = .ok block after ∧ ¬block.Encloses ∧
      block.length = 32 ∧ block.funcEntry? 0 = some (block.base + 40) ∧
      block.listing after .all = .error .unstated := by
  obtain ⟨segment, memory, block, after, hlive, hmake, htest⟩ :=
    exists_make_of_succeeds invertedTables
      (fun block => decide (block.tables = invertedTables ∧ block.length = 32 ∧
        block.funcEntry? 0 = some (block.base + 40))) (by decide +kernel)
  obtain ⟨htables, hlength, hentry⟩ := of_decide_eq_true htest
  refine ⟨segment, memory, block, after, hlive, hmake, fun hencloses => ?_, hlength, hentry, ?_⟩
  · have hin : ⟨.function, some 0, 40, 4, 40⟩ ∈ block.tables.ranges := by
      rw [htables]
      exact List.mem_cons_self
    exact absurd (hencloses.within _ hin).2.1 (by decide)
  · rw [listing, htables]
    rfl

end Block

end CompiledCode

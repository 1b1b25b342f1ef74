import CompiledCode.ModuleCode.State
import CompiledCode.Proofs.Bisection
import CompiledCode.Proofs.Coverage
import CompiledCode.Proofs.Memory
import CompiledCode.Proofs.Tables

/-!
# Blocks that have been made

A block that is made holds the code and the tables that it is made from, within what is in
use of its segment. Binding changes nothing but its owner and its serial number.

Code memory hosts a block that lies within what is mapped and claimed of its segment. Blocks
that are placed, or made of what has just been claimed, share no address with any block that
was hosted before.

Tables in order and within their code can be made into a block, and a block whose tables cover
every function can be bound once.
-/

namespace CompiledCode

namespace Block

/-- Whether two blocks have no address of their code in common. -/
def ClearOf (a b : Block) : Prop :=
  a.isEmpty = true ∨ b.isEmpty = true ∨ Apart (a.base, a.length) (b.base, b.length)

instance : Std.Symm ClearOf where
  symm _ _ h := h.elim (fun ha => .inr (.inl ha)) fun h =>
    h.elim .inl fun hapart => .inr (.inr hapart.symm)

/-- Blocks that both hold code and share no address lie apart. -/
theorem ClearOf.apart {a b : Block} (h : a.ClearOf b) (ha : a.isEmpty = false)
    (hb : b.isEmpty = false) : Apart (a.base, a.length) (b.base, b.length) := by
  rcases h with hempty | hempty | hapart
  · rw [ha] at hempty
    contradiction
  · rw [hb] at hempty
    contradiction
  · exact hapart

end Block

/-- Whether a block without code, or all of its code, is within what is claimed of a mapping, and
executable. -/
def Memory.Hosts (memory : Memory) (block : Block) : Prop :=
  block.isEmpty = true ∨
    (block.segment.base, block.segment.capacity) ∈ memory.mapped ∧
      block.stop ≤ block.segment.capacity ∧ block.stop ≤ memory.inUse block.segment.base ∧
      memory.Sealed block.base block.length

/-- Whether a block is compiled code with a segment of its own, patched there after a plan. -/
structure Memory.Bears (memory : Memory) (block : Block) (compiled : CompiledBlock)
    (plan : PatchPlan) : Prop where
  kind : block.kind = compiled.kind
  start : block.start = 0
  stop : block.stop = compiled.code.length
  stop_le : block.stop ≤ block.segment.capacity
  positive : 0 < block.segment.base
  below : block.segment.base + block.stop ≤ Memory.endOfAddresses
  tables : block.tables = compiled.tables
  patched : ∃ symbols trapHandler,
    (plan.apply block.segment.base symbols trapHandler compiled.code).complete =
      .ok (memory.read block.segment.base block.stop)

/-- Unpatched code with what it takes to patch it for an address. -/
structure Piece where
  /-- The unpatched code. -/
  code : Bytes
  /-- What to patch in the code. -/
  plan : PatchPlan
  /-- The addresses of runtime symbols. -/
  symbols : SymbolTable
  /-- Where traps are handled, if there is code for that. -/
  trapHandler : Option UInt64

/-- A compiled block as it is patched, given the shared stubs that handle its traps. -/
def Piece.ofBlock (compiled : CompiledBlock) (plan : PatchPlan) (symbols : SymbolTable)
    (shared : Option Block) : Piece where
  code := compiled.code
  plan := plan
  symbols := symbols
  trapHandler := (shared.bind (·.trapCode)).map UInt64.ofNat

/-- Compiled stubs as they are patched, given where the shared stubs handle traps. -/
def Piece.ofStubs (stubs : CompiledStubs) (symbols : SymbolTable) (trapCode : Option Nat) : Piece where
  code := stubs.code
  plan := stubs.plan
  symbols := symbols
  trapHandler := trapCode.map UInt64.ofNat

/-- Whether a block holds a piece of code, patched for the address of the block. -/
structure Memory.Shows (memory : Memory) (block : Block) (piece : Piece) : Prop where
  length : block.length = piece.code.length
  patched :
    (piece.plan.apply block.base piece.symbols piece.trapHandler piece.code).complete =
      .ok (memory.read block.base block.length)

/-- A block that ends where it starts, or before, holds no code. -/
theorem Block.isEmpty_of_le {block : Block} (h : block.stop ≤ block.start) :
    block.isEmpty = true := by
  rw [isEmpty, beq_iff_eq, length]
  exact Nat.sub_eq_zero_of_le h

/-- Blocks share no address if one of them ends before the other one starts. -/
theorem Block.clearOf_of_le {a b : Block}
    (h : a.start < a.stop → b.start < b.stop →
      a.segment.base + a.stop ≤ b.segment.base + b.start ∨
        b.segment.base + b.stop ≤ a.segment.base + a.start) : a.ClearOf b := by
  rcases Nat.lt_or_ge a.start a.stop with ha | ha
  · rcases Nat.lt_or_ge b.start b.stop with hb | hb
    · refine .inr (.inr ?_)
      rw [Apart, base, base, length, length]
      omega
    · exact .inr (.inl (isEmpty_of_le hb))
  · exact .inl (isEmpty_of_le ha)

namespace Memory

variable {memory before after : Memory} {block other : Block}

/-- The code of a block that is hosted, and not without code, is claimed. -/
theorem claimed_of_hosts (hin : (block.segment.base, block.segment.capacity) ∈ memory.mapped)
    (hcapacity : block.stop ≤ block.segment.capacity)
    (hinUse : block.stop ≤ memory.inUse block.segment.base) {place : Nat} (hstart : block.base ≤ place)
    (hstop : place < block.base + block.length) : memory.Claimed place := by
  rw [Block.base, Block.length] at *
  refine ⟨_, hin, place - block.segment.base, ?_, ?_, ?_⟩
  all_goals dsimp only; omega

/-- The code of a block that is hosted stays executable as long as no claim is made writable. -/
theorem Sealed.keeps {address length : Nat} (h : before.Sealed address length)
    (hkeeps : before.Keeps after)
    (hclaimed : ∀ place, address ≤ place → place < address + length → before.Claimed place) :
    after.Sealed address length := by
  obtain ⟨calls, hlog, hspared⟩ := hkeeps.calls
  intro place hstart hstop
  have hleft := hclaimed place hstart hstop
  exact accessTo_of_append hlog (fun call hcall hgives => hspared.spared call hcall hgives place hleft)
    (h place hstart hstop)

/-- A block that is hosted stays so as long as nothing is unmapped and no claim is given back. -/
theorem Hosts.keeps (h : before.Hosts block) (hkeeps : before.Keeps after) : after.Hosts block := by
  obtain hempty | ⟨hin, hcapacity, hinUse, hsealed⟩ := h
  · exact .inl hempty
  · exact .inr ⟨hkeeps.mapped _ hin, hcapacity, Nat.le_trans hinUse (hkeeps.inUse _ hin),
      hsealed.keeps hkeeps fun _ => claimed_of_hosts hin hcapacity hinUse⟩

/-- The code of a block that is hosted stays as it is as long as no claim is given back. -/
theorem Hosts.read_keeps (h : before.Hosts block) (hkeeps : before.Keeps after) :
    after.read block.base block.length = before.read block.base block.length := by
  obtain hempty | ⟨hin, hcapacity, hinUse, -⟩ := h
  · rw [Block.isEmpty, beq_iff_eq] at hempty
    rw [hempty]
    rfl
  · refine read_congr fun i hi => ?_
    rw [Block.length] at hi
    rw [Block.base, Nat.add_assoc]
    exact hkeeps.content _ hin (block.start + i) (by dsimp only; omega) (by dsimp only; omega)

/-- A block that is hosted goes on holding the piece of code that it holds. -/
theorem Shows.keeps {piece : Piece} (h : before.Shows block piece) (hhosts : before.Hosts block)
    (hkeeps : before.Keeps after) : after.Shows block piece where
  length := h.length
  patched := by
    rw [hhosts.read_keeps hkeeps]
    exact h.patched

/-- A block that is hosted stays the compiled code that it is. -/
theorem Bears.keeps {compiled : CompiledBlock} {plan : PatchPlan} (h : before.Bears block compiled plan)
    (hhosts : before.Hosts block) (hkeeps : before.Keeps after) : after.Bears block compiled plan := by
  obtain ⟨symbols, trapHandler, hpatched⟩ := h.patched
  have hread := hhosts.read_keeps hkeeps
  rw [Block.base, Block.length, h.start, Nat.add_zero, Nat.sub_zero] at hread
  rw [← hread] at hpatched
  exact { h with patched := ⟨symbols, trapHandler, hpatched⟩ }

/-- A block within what is claimed of its segment is hosted if it is executable. -/
theorem Backs.hosts (h : memory.Backs block.segment) (hstop : block.stop ≤ block.segment.capacity)
    (hinUse : block.stop ≤ memory.inUse block.segment.base)
    (hsealed : memory.Sealed block.base block.length) : memory.Hosts block := by
  obtain hzero | hin := h
  · exact .inl (Block.isEmpty_of_le (by omega))
  · exact .inr ⟨hin, hstop, hinUse, hsealed⟩

/-- A block in a fresh segment shares no address with what is hosted already. -/
theorem Hosts.clearOf_of_fresh (h : memory.Hosts other) (hfresh : memory.Fresh block.segment)
    (hstop : block.stop ≤ block.segment.capacity) : block.ClearOf other := by
  obtain hempty | ⟨hin, hcapacity, -⟩ := h
  · exact .inr (.inl hempty)
  · obtain hzero | hapart := hfresh.apart
    · exact .inl (Block.isEmpty_of_le (by omega))
    · have hor := hapart _ hin
      rw [Apart] at hor
      exact Block.clearOf_of_le fun _ _ => by omega

/-- A block in what has not been claimed yet shares no address with what is hosted already. -/
theorem Hosts.clearOf_of_unclaimed (h : memory.Hosts other) (hsound : memory.Sound)
    (hbacks : memory.Backs block.segment) (hstart : memory.inUse block.segment.base ≤ block.start)
    (hstop : block.stop ≤ block.segment.capacity) : block.ClearOf other := by
  obtain hempty | ⟨hin, hcapacity, hinUse, -⟩ := h
  · exact .inr (.inl hempty)
  · obtain hzero | hmapped := hbacks
    · exact .inl (Block.isEmpty_of_le (by omega))
    · refine Block.clearOf_of_le fun _ _ => ?_
      rcases hsound.eq_or_apart hmapped hin with hsame | hapart
      · -- In one segment a claim comes after everything claimed before it.
        rw [Prod.mk.injEq] at hsame
        rw [hsame.1] at hstart ⊢
        omega
      · rw [Apart] at hapart
        omega

end Memory

namespace Block

/-- An assembled block is what it is assembled from, within its segment. -/
theorem assemble_eq_ok {kind : BlockKind} {segment : Segment} {inUse start stop : Nat}
    {tables : CodeTables} {block : Block}
    (h : assemble kind segment inUse start stop tables = .ok block) :
    block = { kind, segment, start, stop, tables, coverage := Coverage.ofTables kind tables } ∧
      start ≤ stop ∧ stop ≤ inUse := by
  rw [assemble] at h
  split at h
  · contradiction
  · rename_i hbounds
    split at h
    · contradiction
    · split at h
      · exact ⟨(Except.ok.inj h).symm, Decidable.not_not.mp hbounds⟩
      · contradiction

/-- Assembling a block violates nothing that maps of regions look after. -/
theorem ofMap_of_assemble {kind : BlockKind} {segment : Segment} {inUse start stop : Nat}
    {tables : CodeTables} {violation : Violation}
    (h : assemble kind segment inUse start stop tables = .error violation) :
    violation.ofMap = false := by
  rw [assemble] at h
  split at h
  · cases h
    rfl
  · split at h
    · cases h
      rfl
    · split at h
      · contradiction
      · cases h
        rfl

/-- Tables in order are assembled with code that is in use and has all the ranges. -/
theorem exists_assemble_eq_ok {segment : Segment} {inUse start stop : Nat} {tables : CodeTables}
    (hbounds : start ≤ stop ∧ stop ≤ inUse) (hinOrder : tables.disorder? = none)
    (hinside : rangesInside start stop tables = true) (kind : BlockKind) :
    ∃ block, assemble kind segment inUse start stop tables = .ok block := by
  rw [assemble, if_neg (not_not_intro hbounds), hinOrder]
  dsimp only
  rw [if_pos hinside]
  exact ⟨_, rfl⟩

/-- What is assembled has its tables in order and its ranges inside. -/
theorem inOrder_of_assemble {kind : BlockKind} {segment : Segment} {inUse start stop : Nat}
    {tables : CodeTables} {block : Block}
    (h : assemble kind segment inUse start stop tables = .ok block) :
    tables.disorder? = none ∧ rangesInside start stop tables = true := by
  rw [assemble] at h
  split at h
  · contradiction
  · split at h
    · contradiction
    · rename_i hinOrder
      split at h
      · rename_i hinside
        exact ⟨hinOrder, hinside⟩
      · contradiction

/-- Ranges are as much inside of their code when it is moved. -/
theorem rangesInside_shift (tables : CodeTables) (length distance : Nat) :
    rangesInside distance (distance + length) (tables.shift distance) = rangesInside 0 length tables := by
  rw [rangesInside, rangesInside, CodeTables.shift, List.head?_map, List.getLast?_map]
  cases tables.ranges.head? with
  | none => rfl
  | some first =>
    cases tables.ranges.getLast? with
    | none => rfl
    | some last => simp [CodeRange.shift, Nat.add_comm distance]

/-- A block that is made is assembled, from what is in use of its segment by then; there is no failure
but for room. -/
theorem make_ensures (kind : BlockKind) (segment : Segment) (start stop : Nat) (tables : CodeTables)
    (memory : Memory) :
    (make kind segment start stop tables).Ensures memory
      (fun block after =>
        assemble kind segment (segment.length memory) start stop tables = .ok block ∧
          after.claims = memory.claims)
      (fun fault after => fault.ofMap = false ∧
        (∀ block, assemble kind segment (segment.length memory) start stop tables = .ok block →
          fault.isViolation = false) ∧
        after.claims = memory.claims) := by
  rw [make, Op.ensures_bind, Op.ensures_get, Op.ensures_bind, Op.ensures_ofChecked]
  split
  · rename_i block hassemble
    refine (Memory.grow_claims _).bind (fun _ after hafter => ?_)
      (fun _ _ hfault => ⟨Fault.ofMap_of_not_isViolation hfault.1, fun _ _ => hfault.1, hfault.2⟩)
    exact (Op.ensures_pure block).mpr ⟨hassemble, hafter⟩
  · rename_i violation hviolation
    refine ⟨ofMap_of_assemble hviolation, fun block hassemble => ?_, rfl⟩
    rw [hviolation] at hassemble
    contradiction

/-- Whether a block is one that compiled code was made into, and belongs to nobody yet. -/
structure MadeOf (block : Block) (compiled : CompiledBlock) : Prop where
  kind : block.kind = compiled.kind
  tables : block.tables = compiled.tables
  coverage : block.coverage = Coverage.ofTables compiled.kind compiled.tables
  owner : block.owner = none

/-- The code range that a block has for a function covered is the first of its primary ranges for it, if
the map of the block is that of its own tables. -/
theorem rangeOfFunc?_eq {block : Block}
    (hcoverage : block.coverage = Coverage.ofTables block.kind block.tables)
    (hindexable : block.tables.ranges.length ≤ Coverage.reservedIndex) (func : Nat) :
    block.rangeOfFunc? func =
      if block.tables.funcs.contains func then
        block.tables.ranges.find? (Coverage.matching block.kind.primaryRange func)
      else none := by
  obtain ⟨-, hlookup⟩ := Coverage.spans_ofTables hindexable block.kind
  rw [rangeOfFunc?, hcoverage, hlookup, List.find?_eq_bind_findIdx?_getElem?]
  by_cases hin : block.tables.funcs.contains func = true
  · rw [if_pos hin, if_pos hin]
    cases List.findIdx? _ _ <;> rfl
  · rw [if_neg hin, if_neg hin]

/-- A block that is placed is made of the code that was compiled. -/
theorem place_ensures (compiled : CompiledBlock) (plan : PatchPlan) (symbols : SymbolTable)
    (shared : Option Block) (memory : Memory) :
    (place compiled plan symbols shared).Ensures memory
      (fun block _ => block.MadeOf compiled) (fun _ _ => True) := by
  refine (Op.ensures_true _ _).during.bind (fun segment m _ => ?_) (fun _ _ _ => trivial)
  refine (make_ensures ..).bind (fun block m' hblock => ?_) (fun _ _ _ => trivial)
  obtain ⟨rfl, -⟩ := assemble_eq_ok hblock.1
  split
  · exact (Op.ensures_pure _).mpr ⟨rfl, rfl, rfl, rfl⟩
  · exact (Op.ensures_pure _).mpr ⟨rfl, rfl, rfl, rfl⟩

/-- A block that is placed is hosted then, and shares no address with what was hosted before. It bears
the code that was compiled, and placing fails if at all where the tables are in order and in bounds. -/
theorem place_hosts {memory : Memory} (hsound : memory.Sound) (compiled : CompiledBlock)
    (plan : PatchPlan) (symbols : SymbolTable) (shared : Option Block) :
    (place compiled plan symbols shared).Ensures memory
      (fun block after => memory.Keeps after ∧ after.Hosts block ∧
        (∀ other, memory.Hosts other → block.ClearOf other) ∧ after.Bears block compiled plan ∧
        after.Shows block (.ofBlock compiled plan symbols shared))
      (fun fault after => fault.ofMap = false ∧
        (compiled.tables.disorder? = none →
          rangesInside 0 compiled.code.length compiled.tables = true → fault.isViolation = false) ∧
        memory.Keeps after) := by
  refine ((Segment.place_ensures hsound _ _ _ _).during_of fun _ _ h => h).bind
    (fun segment m hm => ?_) (fun _ _ h => ⟨Fault.ofMap_of_not_isViolation h.1, fun _ _ => h.1, h.2⟩)
  obtain ⟨hkeeps, hbacks, hfresh, hinUse, hcode, hpatched, hsealed⟩ := hm
  refine (make_ensures ..).bind (fun block after hafter => ?_) (fun fault after hafter => ?_)
  case refine_2 =>
    obtain ⟨hofMap, hcalm, hclaims⟩ := hafter
    refine ⟨hofMap, fun hinOrder hinside => ?_, hkeeps.of_claims hclaims⟩
    obtain ⟨block, hblock⟩ :=
      exists_assemble_eq_ok ⟨Nat.zero_le _, hcode⟩ hinOrder hinside compiled.kind
    exact hcalm block hblock
  obtain ⟨hassemble, hclaims⟩ := hafter
  obtain ⟨hblock, -, hstop⟩ := assemble_eq_ok hassemble
  have hsegment : block.segment = segment := by rw [hblock]
  have hend : block.stop = compiled.code.length := by rw [hblock]
  have hbase : block.base = segment.base := by rw [hblock]; rfl
  have hlen : block.length = compiled.code.length := by rw [hblock]; rfl
  have hlater := hkeeps.sound.keeps hclaims
  have hlength : block.stop ≤ segment.capacity := hend ▸ Nat.le_trans hstop hinUse
  have hclear : ∀ other, memory.Hosts other → block.ClearOf other := by
    intro other hother
    rw [← hsegment] at hfresh hlength
    exact hother.clearOf_of_fresh hfresh hlength
  have hhosts : after.Hosts block := by
    rw [← hsegment] at hbacks hlength
    refine (hbacks.keeps hlater).hosts hlength ?_ ?_
    · rw [Memory.inUse_of_claims hclaims, hsegment, hend]
      exact hstop
    · rw [hbase, hlen]
      exact hsealed.of_log (Memory.log_of_claims hclaims)
  rw [← Memory.read_congr fun i _ => congrFun (Memory.byteAt_of_claims hclaims) _] at hpatched
  have hbelow : segment.base + block.stop ≤ Memory.endOfAddresses :=
    Nat.le_trans (Nat.add_le_add_left hlength _) hfresh.below
  have hbears : after.Bears block compiled plan := by
    rw [hblock] at hbelow ⊢
    exact ⟨rfl, rfl, rfl, hend ▸ hlength, hfresh.positive, hbelow, rfl, symbols, _, hpatched⟩
  have hshows : after.Shows block (.ofBlock compiled plan symbols shared) := by
    refine ⟨hlen, ?_⟩
    rw [hbase, hlen]
    exact hpatched
  split
  · exact (Op.ensures_pure _).mpr ⟨hkeeps.trans hlater, hhosts, hclear, { hbears with },
      { hshows with }⟩
  · exact (Op.ensures_pure _).mpr ⟨hkeeps.trans hlater, hhosts, hclear, hbears, hshows⟩

end Block

/-- Whether a block can be assembled of stubs, at some place of some segment. -/
def CompiledStubs.Assembles (stubs : CompiledStubs) : Prop :=
  ∃ segment inUse start block, Block.assemble .lazyStubs segment inUse start
    (start + stubs.code.length) ({ stubs.tables with funcs := {} }.shift start) = .ok block

/-- Stubs of which a block can be assembled at all are assembled wherever they are in use. -/
theorem CompiledStubs.Assembles.exists_eq_ok {stubs : CompiledStubs} (h : stubs.Assembles)
    {segment : Segment} {inUse start : Nat} (hroom : start + stubs.code.length ≤ inUse) :
    ∃ block, Block.assemble .lazyStubs segment inUse start (start + stubs.code.length)
      ({ stubs.tables with funcs := {} }.shift start) = .ok block := by
  obtain ⟨_, _, elsewhere, _, hassemble⟩ := h
  obtain ⟨hinOrder, hinside⟩ := Block.inOrder_of_assemble hassemble
  refine Block.exists_assemble_eq_ok ⟨Nat.le_add_right .., hroom⟩ ?_ ?_ _
  · rw [CodeTables.disorder?_shift] at hinOrder ⊢
    exact hinOrder
  · rw [Block.rangesInside_shift] at hinside ⊢
    exact hinside

namespace Block

/-- Binding a block sets its owner and its serial number. -/
theorem bind_eq_ok {block bound : Block} {owner : Owner} {serial : Nat}
    (h : block.bind owner serial = .ok bound) : bound = { block with owner := some owner, serial } := by
  rw [bind] at h
  split at h
  · contradiction
  · split at h
    · contradiction
    · exact (Except.ok.inj h).symm

/-- Binding a block violates nothing that maps of regions look after. -/
theorem ofMap_of_bind {block : Block} {owner : Owner} {serial : Nat} {violation : Violation}
    (h : block.bind owner serial = .error violation) : violation.ofMap = false := by
  rw [bind] at h
  split at h
  · rename_i hgap
    cases h
    rw [Coverage.requireFull] at hgap
    split at hgap <;> cases hgap
    rfl
  · split at h <;> cases h
    rfl

/-- Whether a block belongs to nobody and has a code range for each function that it covers. -/
structure Bindable (block : Block) : Prop where
  owner : block.owner = none
  full : block.coverage.requireFull = .ok ()

/-- Whether a block has the code ranges of the functions that compiled code covers, one for each. -/
structure Covers (block : Block) (compiled : CompiledBlock) : Prop where
  coverage : block.coverage = Coverage.ofTables compiled.kind compiled.tables
  full : block.coverage.requireFull = .ok ()

/-- A block that compiled code was made into covers it if it can be bound. -/
theorem MadeOf.covers {block : Block} {compiled : CompiledBlock} (h : block.MadeOf compiled)
    (hbindable : block.Bindable) : block.Covers compiled :=
  ⟨h.coverage, hbindable.full⟩

/-- A block that compiled code was made into can be bound if another one covers the same functions. -/
theorem MadeOf.bindable_of_covers {block other : Block} {compiled : CompiledBlock}
    (h : block.MadeOf compiled) (hother : other.Covers compiled) : block.Bindable :=
  ⟨h.owner, h.coverage ▸ hother.coverage ▸ hother.full⟩

/-- A block that can be bound is bound. -/
theorem Bindable.bind_ne_error {block : Block} (h : block.Bindable) (owner : Owner) (serial : Nat)
    (violation : Violation) : block.bind owner serial ≠ .error violation := by
  rw [bind, h.full]
  dsimp only
  rw [h.owner]
  nofun

/-- A block that is bound could be bound. -/
theorem bindable_of_bind {block bound : Block} {owner : Owner} {serial : Nat}
    (h : block.bind owner serial = .ok bound) : block.Bindable := by
  rw [bind] at h
  split at h
  · contradiction
  · rename_i hfull
    split at h
    · contradiction
    · rename_i howner
      exact ⟨howner, hfull⟩

/-- The range at an index is the one in the table. -/
theorem rangeAt_eq_ok {block : Block} {index : Nat} {range : CodeRange}
    (h : block.tables.ranges[index]? = some range) : block.rangeAt index = .ok range := by
  rw [rangeAt, h]

/-- An index without a range violates nothing that maps of regions look after. -/
theorem ofMap_of_rangeAt {block : Block} {index : Nat} {violation : Violation}
    (h : block.rangeAt index = .error violation) : violation.ofMap = false := by
  rw [rangeAt] at h
  split at h <;> cases h
  rfl

/-- A function without an export violates nothing that maps of regions look after. -/
theorem ofMap_of_exportOf {block : Block} {func : Nat} {violation : Violation}
    (h : block.exportOf func = .error violation) : violation.ofMap = false := by
  rw [exportOf] at h
  split at h <;> cases h
  rfl

/-- The export that a block has for a function is one of that function. -/
theorem func_of_exportOf {block : Block} {func index : Nat} {entry : FuncExport}
    (h : block.exportOf func = .ok (index, entry)) : entry.func = func := by
  rw [exportOf] at h
  split at h
  · rename_i found hfound
    cases h
    exact key_of_findKey? hfound
  · contradiction

end Block

/-- A block is bound under the next serial number, which is used up then, unless it cannot be bound. -/
theorem Engine.bindBlock_ensures (owner : Nat) (block : Block) (engine : Engine) :
    (bindBlock owner block).Ensures engine
      (fun bound e =>
        bound = { block with owner := some (.moduleCode owner), serial := engine.nextSerial } ∧
          e = { engine with nextSerial := engine.nextSerial + 1 } ∧ block.Bindable)
      (fun fault e => fault.ofMap = false ∧ ¬ block.Bindable ∧ e = engine) := by
  rw [bindBlock, Op.ensures_bind, Op.ensures_get, Op.ensures_bind, Op.ensures_ofChecked]
  split
  · rename_i bound hbind
    rw [Op.ensures_bind, Op.ensures_set, Op.ensures_pure]
    exact ⟨Block.bind_eq_ok hbind, rfl, Block.bindable_of_bind hbind⟩
  · rename_i violation hviolation
    exact ⟨Block.ofMap_of_bind hviolation, fun h => h.bind_ne_error _ _ _ hviolation, rfl⟩

end CompiledCode

import CompiledCode.Proofs.Image.Check

/-!
# Which function has no code range

Binding a block stops at the first function that has no code range, and so does the check of a block
in an image. The two find it in different ways: a block fills a dense map with the index of the first
range of each function when it is made, while the check marks functions in a bitmap. They agree,
whatever the order of the ranges, for functions with more than one range and for ranges of functions
that are not covered. As far as other checks are concerned, a block that reaches this one can be made.
-/

namespace CompiledCode

/-- If every answer is of some sort then a first one that never is does not answer. -/
theorem eq_none_of_forall_orElse {α : Type} {P : α → Prop} {first second : Option α}
    (h : ∀ answer ∈ (first <|> second), P answer) (hother : ∀ answer ∈ first, ¬ P answer) :
    first = none ∧ ∀ answer ∈ second, P answer := by
  cases first with
  | none => exact ⟨rfl, h⟩
  | some answer => exact absurd (h answer rfl) (hother answer rfl)

/-- Whether a function is the least of those covered that have no code range of a kind. -/
structure CodeTables.FirstUncovered (tables : CodeTables) (kind : RangeKind) (func : Nat) : Prop where
  contains : tables.funcs.contains func = true
  missing : tables.hasRange kind func = false
  least : ∀ other, tables.funcs.contains other = true → other < func → tables.hasRange kind other = true

/-- The function found missing is the least one that is. -/
theorem CodeTables.uncovered?_eq_some_iff {tables : CodeTables} {kind : RangeKind} {func : Nat} :
    tables.uncovered? kind = some func ↔ tables.FirstUncovered kind func := by
  rw [uncovered?_eq, List.find?_range'_eq_some, FuncSpan.mem_range'_iff]
  constructor
  · rintro ⟨hmissing, hin, hleast⟩
    refine ⟨hin, by simpa using hmissing, fun other hother hlt => ?_⟩
    simpa using hleast other (FuncSpan.contains_iff.mp hother).1 hlt
  · rintro ⟨hin, hmissing, hleast⟩
    refine ⟨by simpa using hmissing, hin, fun other hfirst hlt => ?_⟩
    have hother : tables.funcs.contains other = true := by
      rw [FuncSpan.contains_iff] at hin ⊢
      omega
    simpa using hleast other hother hlt

/-- Some function is found missing if there is one. -/
theorem CodeTables.isSome_uncovered?_iff {tables : CodeTables} {kind : RangeKind} :
    (tables.uncovered? kind).isSome = true ↔
      ∃ func, tables.funcs.contains func = true ∧ tables.hasRange kind func = false := by
  rw [uncovered?_eq, List.find?_isSome]
  simp only [FuncSpan.mem_range'_iff, Bool.not_eq_true']

namespace Block

variable {block : Block} {compiled : CompiledBlock}

/-- A block that is made is made of its tables. -/
theorem madeOf_of_make {kind : BlockKind} {segment : Segment} {start stop : Nat} {tables : CodeTables}
    {memory after : Memory} (h : make kind segment start stop tables memory = .ok block after)
    (code : Bytes) : block.MadeOf { kind, code, tables } := by
  have hassemble := ((make_ensures kind segment start stop tables memory).of_ok h).1
  obtain ⟨rfl, -⟩ := assemble_eq_ok hassemble
  exact ⟨rfl, rfl, rfl, rfl⟩

/-- The code range of a function in a block is the first one that was compiled for it. -/
theorem MadeOf.rangeOfFunc?_eq (h : block.MadeOf compiled) (hindexable : compiled.Indexable)
    (func : Nat) :
    block.rangeOfFunc? func =
      if compiled.tables.funcs.contains func then
        compiled.tables.ranges.find? (Coverage.matching compiled.kind.primaryRange func)
      else none := by
  have hcoverage := h.coverage
  rw [← h.kind, ← h.tables] at hcoverage
  rw [Block.rangeOfFunc?_eq hcoverage (h.tables ▸ hindexable), h.kind, h.tables]

/-- A function has a code range in a block if it is covered and one was compiled for it. -/
theorem MadeOf.isSome_rangeOfFunc?_iff (h : block.MadeOf compiled) (hindexable : compiled.Indexable)
    (func : Nat) :
    (block.rangeOfFunc? func).isSome = true ↔
      compiled.tables.funcs.contains func = true ∧
        compiled.tables.hasRange compiled.kind.primaryRange func = true := by
  rw [h.rangeOfFunc?_eq hindexable]
  split
  · rename_i hin
    rw [List.find?_isSome, CodeTables.hasRange, List.any_eq_true]
    exact (and_iff_right hin).symm
  · rename_i hout
    exact iff_of_false Bool.false_ne_true fun hin => hout hin.1

/-- Binding a block for the first time stops at the function that is found missing, if there is one. -/
theorem MadeOf.bind_eq (h : block.MadeOf compiled) (hindexable : compiled.Indexable) (owner : Owner)
    (serial : Nat) :
    block.bind owner serial =
      match compiled.tables.uncovered? compiled.kind.primaryRange with
      | some func => .error (.uncoveredFunction func)
      | none => .ok { block with owner := some owner, serial } := by
  rw [bind, h.coverage, Coverage.requireFull, Coverage.gap?_ofTables hindexable]
  cases compiled.tables.uncovered? compiled.kind.primaryRange with
  | some func => rfl
  | none =>
    dsimp only
    rw [h.owner]

/-- Binding a block for the first time is violated by the function that is found missing alone. -/
theorem MadeOf.bind_eq_error_iff (h : block.MadeOf compiled) (hindexable : compiled.Indexable)
    {owner : Owner} {serial : Nat} {violation : Violation} :
    block.bind owner serial = .error violation ↔
      ∃ func, compiled.tables.uncovered? compiled.kind.primaryRange = some func ∧
        violation = .uncoveredFunction func := by
  rw [h.bind_eq hindexable]
  cases compiled.tables.uncovered? compiled.kind.primaryRange with
  | some func => simp [eq_comm]
  | none => simp

end Block

namespace CompiledBlock

/-- Whether a block passes everything that is checked before its functions are looked for. -/
structure Orderly (block : CompiledBlock) (expected : BlockKind) (funcCount : Nat) : Prop where
  kind : block.kind = expected
  small : block.code.length < UInt32.size
  inOrder : block.tables.disorder? = none
  inBounds : block.tables.boundsFault? block.code.length = none
  named : ∀ func ∈ block.tables.namedFuncs, func < funcCount
  span : block.tables.hasBadSpan = false

variable {block : CompiledBlock} {expected : BlockKind} {funcCount : Nat}

/-- A block that passes everything else is refused for the function that is found missing alone. -/
theorem Orderly.refusal?_eq (h : block.Orderly expected funcCount) :
    block.refusal? expected funcCount =
      (block.tables.uncovered? block.kind.primaryRange).map fun func =>
        .block expected (.uncovered func) := by
  have hnamed : block.tables.namedFuncs.find? (funcCount ≤ ·) = none :=
    List.find?_eq_none.mpr fun func hin => by simpa using h.named func hin
  rw [refusal?, if_neg (not_not_intro h.kind), fault?, if_neg (Nat.not_le_of_lt h.small), h.inOrder,
    h.inBounds, hnamed, h.span]
  cases block.tables.uncovered? block.kind.primaryRange <;> rfl

/-- A block passes everything else exactly if it is not refused for anything else. -/
theorem orderly_iff : block.Orderly expected funcCount ↔
    ∀ fault ∈ block.refusal? expected funcCount, ∃ func, fault = .block expected (.uncovered func) := by
  constructor
  · intro h fault hfault
    rw [h.refusal?_eq] at hfault
    obtain ⟨func, -, rfl⟩ := Option.map_eq_some_iff.mp hfault
    exact ⟨func, rfl⟩
  · intro h
    rw [refusal?] at h
    split_ifs at h with hkind
    · obtain ⟨_, hfault⟩ := h _ rfl
      contradiction
    -- Each check that fails would be what the block is refused for.
    have halone : ∀ fault ∈ block.fault? funcCount, ∃ func, fault = .uncovered func := by
      intro fault hfault
      obtain ⟨func, heq⟩ := h _ (Option.mem_map_of_mem _ hfault)
      exact ⟨func, (ImageFault.block.inj heq).2⟩
    rw [fault?] at halone
    by_cases hlarge : UInt32.size ≤ block.code.length
    · rw [if_pos hlarge] at halone
      obtain ⟨_, hfault⟩ := halone _ rfl
      contradiction
    rw [if_neg hlarge] at halone
    obtain ⟨hinOrder, halone⟩ := eq_none_of_forall_orElse halone (by simp)
    obtain ⟨hinBounds, halone⟩ := eq_none_of_forall_orElse halone (by simp)
    obtain ⟨hnamed, halone⟩ := eq_none_of_forall_orElse halone (by simp)
    obtain ⟨hspan, -⟩ := eq_none_of_forall_orElse halone (by simp)
    rw [Option.map_eq_none_iff] at hinOrder hinBounds hnamed
    exact
      { kind := not_not.mp hkind
        small := Nat.lt_of_not_le hlarge
        inOrder := hinOrder
        inBounds := hinBounds
        named := fun func hin => by simpa using List.find?_eq_none.mp hnamed func hin
        span := by simpa using hspan }

/-- Nothing but room keeps a block that passes everything else from being made. -/
theorem Orderly.exists_assemble_eq_ok (h : block.Orderly expected funcCount) (segment : Segment)
    {inUse : Nat} (hinUse : block.code.length ≤ inUse) :
    ∃ made, Block.assemble block.kind segment inUse 0 block.code.length block.tables = .ok made :=
  Block.exists_assemble_eq_ok ⟨Nat.zero_le _, hinUse⟩ h.inOrder
    (CodeTables.rangesInside_of_boundsFault? h.inBounds) block.kind

/-- Making a block and checking it come to the same about the functions covered. A block that is made
of tables has, for every function covered that has code ranges of the primary kind, the first one of
them, and no code range for any other function; binding it is a violation exactly if a function covered
has no such code range, and tells the least one. A block passes every check before that of its functions
if nothing else is what it is refused for; then it can be made, and the check finds a function missing
exactly if binding the block made of it would be a violation, for the same function. All this is as long
as a coverage map can hold the index of every code range. -/
theorem coverage_is_decided_alike :
    (∀ (kind : BlockKind) (segment : Segment) (start stop : Nat) (tables : CodeTables) (made : Block)
        (memory after : Memory),
      Block.make kind segment start stop tables memory = .ok made after →
      tables.ranges.length ≤ Coverage.reservedIndex →
      (∀ func range, made.rangeOfFunc? func = some range ↔
        tables.funcs.contains func = true ∧
          tables.ranges.find? (Coverage.matching kind.primaryRange func) = some range) ∧
      (∀ func, (made.rangeOfFunc? func).isSome = true ↔
        tables.funcs.contains func = true ∧ tables.hasRange kind.primaryRange func = true) ∧
      ∀ owner serial,
        ((∃ violation, made.bind owner serial = .error violation) ↔
          ∃ func, tables.funcs.contains func = true ∧
            tables.hasRange kind.primaryRange func = false) ∧
        ∀ violation, made.bind owner serial = .error violation ↔
          ∃ func, tables.FirstUncovered kind.primaryRange func ∧
            violation = .uncoveredFunction func) ∧
    ∀ (block : CompiledBlock) (expected : BlockKind) (funcCount : Nat),
      (block.Orderly expected funcCount ↔ ∀ fault ∈ block.refusal? expected funcCount,
        ∃ func, fault = .block expected (.uncovered func)) ∧
      (block.Orderly expected funcCount →
        (∀ segment inUse, block.code.length ≤ inUse → ∃ made,
          Block.assemble block.kind segment inUse 0 block.code.length block.tables = .ok made) ∧
        ∀ (plan : PatchPlan) (symbols : SymbolTable) (shared : Option Block) (made : Block)
          (memory after : Memory),
          Block.place block plan symbols shared memory = .ok made after →
          block.tables.ranges.length ≤ Coverage.reservedIndex → ∀ owner serial,
            (block.refusal? expected funcCount = none ↔
              ∃ bound, made.bind owner serial = .ok bound) ∧
            ∀ func, block.refusal? expected funcCount = some (.block expected (.uncovered func)) ↔
              made.bind owner serial = .error (.uncoveredFunction func)) := by
  constructor
  · intro kind segment start stop tables made memory after hmake hindexable
    have hmade := Block.madeOf_of_make hmake []
    refine ⟨fun func range => ?_, hmade.isSome_rangeOfFunc?_iff hindexable, fun owner serial => ⟨?_, ?_⟩⟩
    · rw [hmade.rangeOfFunc?_eq hindexable, Option.ite_none_right_eq_some]
    · rw [← CodeTables.isSome_uncovered?_iff, Option.isSome_iff_exists]
      simp only [hmade.bind_eq_error_iff hindexable]
      exact ⟨fun ⟨_, func, hfunc, _⟩ => ⟨func, hfunc⟩, fun ⟨func, hfunc⟩ => ⟨_, func, hfunc, rfl⟩⟩
    · intro violation
      simp only [hmade.bind_eq_error_iff hindexable, CodeTables.uncovered?_eq_some_iff]
  · intro block expected funcCount
    refine ⟨orderly_iff, fun horderly => ⟨fun segment _ => horderly.exists_assemble_eq_ok segment, ?_⟩⟩
    intro plan symbols shared made memory after hplace hindexable owner serial
    have hmade := (Block.place_ensures block plan symbols shared memory).of_ok hplace
    rw [horderly.refusal?_eq, hmade.bind_eq hindexable]
    cases block.tables.uncovered? block.kind.primaryRange with
    | some missing => simp
    | none => simp

/-- A tier with two bodies of one function, a body of a function that is not covered, and only a jit entry
for another one. -/
def incomplete : CompiledBlock where
  kind := .baselineTier
  code := List.replicate 20 0xc3
  tables :=
    { funcs := { first := 1, stop := 4 }
      ranges :=
        [⟨.function, some 2, 0, 4, 0⟩, ⟨.function, some 2, 4, 8, 4⟩, ⟨.jitEntry, some 3, 8, 12, 8⟩,
          ⟨.function, some 7, 12, 16, 12⟩, ⟨.function, some 1, 16, 20, 16⟩] }

/-- The first body of a function is the one that counts, and the function with a jit entry alone is found
missing in two ways. -/
theorem coverage_is_decided_alike_of_incomplete :
    ∃ (placed made : Block) (before between after : Memory),
      Block.place incomplete {} .empty none before = .ok placed between ∧
      Block.make .baselineTier placed.segment 0 20 incomplete.tables between = .ok made after ∧
      made.rangeOfFunc? 2 = some ⟨.function, some 2, 0, 4, 0⟩ ∧
      (made.rangeOfFunc? 7).isSome ≠ true ∧
      made.bind .nobody 0 = .error (.uncoveredFunction 3) ∧
      incomplete.refusal? .baselineTier 8 = some (.block .baselineTier (.uncovered 3)) ∧
      placed.bind .nobody 0 = .error (.uncoveredFunction 3) := by
  have hends : (Block.place incomplete {} .empty none).succeeds {} (fun placed between =>
      (Block.make .baselineTier placed.segment 0 20 incomplete.tables).succeeds between
        fun _ _ => true) = true := by
    decide +kernel
  obtain ⟨placed, between, hplace, hends⟩ := Op.exists_of_succeeds hends
  obtain ⟨made, after, hmake, -⟩ := Op.exists_of_succeeds hends
  have hindexable : incomplete.tables.ranges.length ≤ Coverage.reservedIndex := by decide
  have hrefused : incomplete.refusal? .baselineTier 8 =
      some (.block .baselineTier (.uncovered 3)) := by decide
  obtain ⟨hmaking, hchecking⟩ := coverage_is_decided_alike
  obtain ⟨hrange, hsome, hbind⟩ := hmaking _ _ _ _ _ _ _ _ hmake hindexable
  have hfirst : incomplete.tables.FirstUncovered .function 3 :=
    CodeTables.uncovered?_eq_some_iff.mp (by decide)
  obtain ⟨horderly, hchecked⟩ := hchecking incomplete .baselineTier 8
  have hpasses : incomplete.Orderly .baselineTier 8 := horderly.mpr fun fault hfault => by
    rw [hrefused] at hfault
    exact ⟨3, (Option.some.inj hfault).symm⟩
  obtain ⟨-, hmissing⟩ := (hchecked hpasses).2 _ _ _ _ _ _ hplace hindexable .nobody 0
  exact ⟨placed, made, {}, between, after, hplace, hmake, (hrange 2 _).mpr (by decide),
    fun h => absurd ((hsome 7).mp h).1 (by decide), ((hbind _ _).2 _).mpr ⟨3, hfirst, rfl⟩, hrefused,
    (hmissing 3).mp hrefused⟩

end CompiledBlock

end CompiledCode

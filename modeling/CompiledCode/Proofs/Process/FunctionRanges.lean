import CompiledCode.Proofs.ModuleCode.Targets
import CompiledCode.Proofs.Process.Failure
import CompiledCode.Proofs.Process.Forsaken
import CompiledCode.Proofs.Process.Mirror
import CompiledCode.Stubs.Layout

/-!
# Two ways to find a function

The function that a program counter is in can be found by going through the tiers of a module, or by
looking up the block that contains the program counter and then the code range in it. The former knows
nothing of the index of blocks, and the latter nothing of tiers. They agree since the tiers are exactly
the blocks that are of a kind for tiers: a tier is published if and only if it stays among the blocks,
and no other block ever has such a kind. As no two blocks share an address, it does not matter either
that the first tier with any code range for the program counter decides the former search.
-/

namespace CompiledCode

/-- The kinds of blocks that hold a tier. -/
theorem BlockKind.isSome_tier?_iff (kind : BlockKind) :
    kind.tier?.isSome = true ↔ kind = .baselineTier ∨ kind = .optimizedTier := by
  cases kind <;> simp [tier?]

namespace ModuleCode

/-- Whether the tiers of a module are those of its blocks that are of a kind for tiers. -/
def ListsTiers (code : ModuleCode) : Prop :=
  ∀ block, block ∈ code.tiers ↔ block ∈ code.blocks ∧ block.kind.tier?.isSome = true

variable {code later : ModuleCode}

/-- Of the blocks that a module starts out with the first tier is the only one of a kind for tiers. -/
theorem CreatedFrom.listsTiers {settings : Settings} {symbols : SymbolTable} {parts : ModuleParts}
    (h : CreatedFrom settings symbols parts code) : code.ListsTiers := by
  obtain ⟨hblocks, ⟨_, _, hshared⟩, ⟨_, _, htier1⟩⟩ := h.blocks
  have htiers : code.tiers = [code.tier1] := by rw [tiers, h.fresh.1]; rfl
  have hstubs : code.sharedStubs.kind.tier?.isSome = false := by
    rw [hshared]
    exact congrArg (·.tier?.isSome) h.sharedKind
  have htier : code.tier1.kind.tier?.isSome = true := by
    rw [htier1]
    exact h.tierKind
  intro block
  rw [htiers, hblocks, List.mem_singleton, List.mem_pair]
  constructor
  · rintro rfl
    exact ⟨.inr rfl, htier⟩
  · rintro ⟨rfl | rfl, hkind⟩
    · rw [hstubs] at hkind
      contradiction
    · rfl

/-- The tiers are still listed if the new ones are those of the new blocks that are of a kind for tiers. -/
theorem ListsTiers.grow (h : code.ListsTiers) (more tiers : List Block)
    (hblocks : later.blocks = code.blocks ++ more) (htiers : later.tiers = code.tiers ++ tiers)
    (hmore : ∀ block, block ∈ tiers ↔ block ∈ more ∧ block.kind.tier?.isSome = true) :
    later.ListsTiers := by
  intro block
  rw [htiers, hblocks, List.mem_append, List.mem_append, h block, hmore block, ← or_and_right]

/-- The tiers are still listed if neither the blocks nor the tiers are other ones. -/
theorem ListsTiers.congr (h : code.ListsTiers) (hblocks : later.blocks = code.blocks)
    (htiers : later.tiers = code.tiers) : later.ListsTiers := by
  intro block
  rw [htiers, hblocks]
  exact h block

/-- Stubs are of no kind for tiers. -/
theorem isSome_tier?_of_madeBy {batch : StubBatch} {compiler : StubCompiler} (h : batch.MadeBy compiler) :
    batch.block.kind.tier?.isSome = false := by
  rw [h.houses.kind]
  rfl

/-- The tiers are still listed whatever a call comes to. -/
theorem ListsTiers.outcome (h : code.ListsTiers) {call : ModuleCall} (houtcome : call.Outcome code later) :
    later.ListsTiers := by
  cases houtcome with
  | notes hmarked =>
    obtain ⟨_, _, -, hcontent⟩ := id hmarked
    exact h.congr (congrArg ModuleCode.blocks hcontent :) hmarked.sameProviders.tiers_eq
  | @stub _ _ batch _ hadds =>
    obtain ⟨_, _, -, -, hcontent⟩ := hadds.content
    refine h.grow [batch.block] [] (congrArg ModuleCode.blocks hcontent :) ?_ fun block => ?_
    · rw [hadds.sameProviders.tiers_eq, List.append_nil]
    · rw [List.mem_singleton]
      refine iff_of_false List.not_mem_nil ?_
      rintro ⟨rfl, hkind⟩
      rw [isSome_tier?_of_madeBy hadds.madeBy] at hkind
      contradiction
  | @tier _ _ _ tier2 made _ habsent _ hkind hadds =>
    have hpublished : later.tier2 = .published tier2 := (congrArg ModuleCode.tier2 hadds.content :)
    have htier1 : later.tier1 = code.tier1 := (congrArg ModuleCode.tier1 hadds.content :)
    have htier : tier2.kind.tier?.isSome = true := by
      rw [hadds.kind, hkind]
      rfl
    refine h.grow _ [tier2] (congrArg ModuleCode.blocks hadds.content :) ?_ fun block => ?_
    · rw [tiers, tiers, htier1, hpublished, habsent]
      rfl
    · rw [List.mem_singleton, List.mem_cons, Option.mem_toList, Option.map_eq_some_iff]
      constructor
      · rintro rfl
        exact ⟨.inl rfl, htier⟩
      · rintro ⟨rfl | ⟨batch, hmade, rfl⟩, hsome⟩
        · rfl
        · rw [isSome_tier?_of_madeBy (hadds.madeBy batch hmade).1] at hsome
          contradiction
  | offer hoffered hcontent =>
    exact h.congr (congrArg ModuleCode.blocks hcontent :) (sameProviders_of_dispatch hcontent).tiers_eq

/-- The tiers are among the blocks. -/
theorem ListsTiers.subset (h : code.ListsTiers) : code.tiers ⊆ code.blocks :=
  fun block hin => ((h block).mp hin).1

end ModuleCode

namespace Process

variable {p : Process} {since : Memory} {code : ModuleCode} {block : Block} {located : LocatedRange}
  {pc : Nat}

/-- What new module code has lasts if nothing that a call can come to takes it away. -/
theorem lasting_of_outcome {motive : ModuleCode → Prop}
    (hcreate : ∀ {settings : Settings} {symbols : SymbolTable} {parts : ModuleParts} {code : ModuleCode},
      ModuleCode.CreatedFrom settings symbols parts code → motive code)
    (houtcome : ∀ {call : ModuleCall} {code later : ModuleCode}, call.Outcome code later → motive code →
      motive later)
    (hdispatch : ∀ {code : ModuleCode} (tables : DispatchTables), motive code →
      motive (code.withDispatch tables))
    (hlabel : ∀ {code : ModuleCode} (labels : List String), motive code → motive { code with labels }) :
    Lasting motive where
  create hend := hcreate ((ModuleCode.create_content ..).of_ok hend)
  entry _ _ hend hcalm := houtcome ((ModuleCall.interpEntry_outcome ..).ending_of_calm hend hcalm)
  install _ hend hcalm :=
    houtcome ((ModuleCall.run_outcome (.install ..) _).ending_of_calm hend hcalm)
  dispatch := hdispatch
  label := hlabel

/-- A module lists its tiers whatever is done to its code. -/
theorem lasting_listsTiers : Lasting ModuleCode.ListsTiers :=
  lasting_of_outcome (fun hfrom => hfrom.listsTiers) (fun houtcome hlists => hlists.outcome houtcome)
    (fun _ hlists => hlists.congr rfl rfl) fun _ hlists => hlists.congr rfl rfl

/-- Every module lists its tiers at all times. -/
theorem Reachable.listsTiers (h : Reachable p) : ∀ code ∈ p.codes, code.ListsTiers :=
  lasting_listsTiers.holds h

/-- Where a module has no block there is no function of it. -/
theorem InStep.funcRangeAt?_eq_none (h : InStep since p) (hcode : code ∈ p.codes)
    (hlists : code.ListsTiers) (hnone : code.blockAt? pc = none) : code.funcRangeAt? pc = none := by
  have hsearch : (code.tiers.findSome? fun tier => (tier.range? pc).map fun range =>
      ({ range, home := some tier.serial } : LocatedRange)) = none := by
    refine List.findSome?_eq_none_iff.mpr fun tier htier => ?_
    have helsewhere : tier.contains pc = false := by
      refine Bool.eq_false_iff.mpr fun hcontains => ?_
      have hfound := (h.blockAt?_eq_some_iff hcode pc tier).mpr ⟨hlists.subset htier, hcontains⟩
      rw [hnone] at hfound
      contradiction
    rw [Block.range?_of_not_contains helsewhere]
    rfl
  change (code.tiers.findSome? _).filter _ = _
  rw [hsearch]
  rfl

/-- Going through the tiers finds what the block that contains the program counter has there. -/
theorem InStep.funcRangeAt?_eq_some_iff (h : InStep since p) (hcode : code ∈ p.codes)
    (hlists : code.ListsTiers) :
    code.funcRangeAt? pc = some located ↔ ∃ block, code.blockAt? pc = some block ∧
      (block.kind = .baselineTier ∨ block.kind = .optimizedTier) ∧
      block.range? pc = some located.range ∧ located.range.kind = .function ∧
      located.home = some block.serial := by
  cases hat : code.blockAt? pc with
  | none => simp [h.funcRangeAt?_eq_none hcode hlists hat]
  | some block =>
    obtain ⟨hblock, hcontains⟩ := (h.blockAt?_eq_some_iff hcode pc block).mp hat
    have htier : block ∈ code.tiers ↔ block.kind = .baselineTier ∨ block.kind = .optimizedTier := by
      rw [hlists block, and_iff_right hblock, BlockKind.isSome_tier?_iff]
    rw [h.funcRangeAt?_eq hcode hlists.subset hblock hcontains]
    simp only [Option.some.injEq, exists_eq_left', ← htier]
    split
    · rename_i hin
      rw [and_iff_right hin, Option.filter_eq_some_iff, Option.map_eq_some_iff, decide_eq_true_eq]
      constructor
      · rintro ⟨⟨range, hrange, rfl⟩, hfunction⟩
        exact ⟨hrange, hfunction, rfl⟩
      · rintro ⟨hrange, hfunction, hhome⟩
        exact ⟨⟨located.range, hrange, by rw [← hhome]⟩, hfunction⟩
    · rename_i hout
      exact iff_of_false nofun fun hfound => hout hfound.1

/-- A code range that was looked up in a tier is of that tier. -/
theorem InStep.tierOfRange_eq (h : InStep since p) (hcode : code ∈ p.codes) (hlists : code.ListsTiers)
    (hblock : block ∈ code.tiers) (hhome : located.home = some block.serial) :
    ∃ tier, block.tier = .ok tier ∧ code.tierOfRange located = .ok (some tier) := by
  obtain ⟨tier, hkind⟩ := Option.isSome_iff_exists.mp ((hlists block).mp hblock).2
  have htier : block.tier = .ok tier := by rw [Block.tier, hkind]
  refine ⟨tier, htier, ?_⟩
  by_cases hfirst : block = code.tier1
  · subst hfirst
    rw [ModuleCode.tierOfRange, htier, if_pos hhome]
    rfl
  · have howned {other : Block} (hother : other ∈ code.tiers) : other ∈ p.blocks :=
      List.mem_flatMap.mpr ⟨code, hcode, hlists.subset hother⟩
    have hne : located.home ≠ some code.tier1.serial := by
      intro hsame
      rw [hhome] at hsame
      exact hfirst (List.inj_on_of_nodup_map h.serials (howned hblock)
        (howned List.mem_cons_self) (Option.some.inj hsame))
    have hsecond : code.tier2.block? = some block := (ModuleCode.mem_tiers.mp hblock).resolve_left hfirst
    rw [ModuleCode.tierOfRange, if_neg hne, hsecond]
    dsimp only
    rw [if_pos hhome, htier]
    rfl

/-- At any time, going through the tiers of a module for a program counter finds a code range if and only
if the block that contains the program counter is a tier and has that range there, for a function. The
range is then of the tier that the block is. So there is no function in shared stubs, in entry stubs or in
other code ranges, and neither a function nor a block in a tier whose install has failed. -/
theorem function_lookups_agree (h : Reachable p) (hcode : code ∈ p.codes) (pc : Nat) :
    (∀ located, code.funcRangeAt? pc = some located ↔ ∃ block, code.blockAt? pc = some block ∧
      (block.kind = .baselineTier ∨ block.kind = .optimizedTier) ∧
      block.range? pc = some located.range ∧ located.range.kind = .function ∧
      located.home = some block.serial) ∧
    (∀ located block, code.funcRangeAt? pc = some located → code.blockAt? pc = some block →
      ∃ tier, block.tier = .ok tier ∧ code.tierOfRange located = .ok (some tier)) ∧
    (∀ block ∈ code.blocks, block.contains pc = true →
      (block.kind = .sharedStubs ∨ block.kind = .lazyStubs ∨
        ∀ range, block.range? pc = some range → range.kind ≠ .function) →
      code.funcRangeAt? pc = none) ∧
    ∀ tier2, Forsaken tier2 p → tier2.contains pc = true →
      code.blockAt? pc = none ∧ code.funcRangeAt? pc = none := by
  have hinStep := h.inStep
  have hlists := h.listsTiers code hcode
  have hagree {located : LocatedRange} :
      code.funcRangeAt? pc = some located ↔ _ := hinStep.funcRangeAt?_eq_some_iff hcode hlists
  refine ⟨fun located => hagree, fun located block hlocated hat => ?_, fun block hblock hcontains hno => ?_,
    fun tier2 hforsaken hcontains => ?_⟩
  · obtain ⟨_, hsame, hkind, -, -, hhome⟩ := hagree.mp hlocated
    obtain rfl := Option.some.inj (hat.symm.trans hsame)
    obtain ⟨hblock, -⟩ := (hinStep.blockAt?_eq_some_iff hcode pc block).mp hat
    have htier : block ∈ code.tiers :=
      (hlists block).mpr ⟨hblock, (BlockKind.isSome_tier?_iff _).mpr hkind⟩
    exact hinStep.tierOfRange_eq hcode hlists htier hhome
  · refine Option.eq_none_iff_forall_ne_some.mpr fun located hlocated => ?_
    obtain ⟨_, hsame, hkind, hrange, hfunction, -⟩ := hagree.mp hlocated
    have hat := (hinStep.blockAt?_eq_some_iff hcode pc block).mpr ⟨hblock, hcontains⟩
    obtain rfl := Option.some.inj (hat.symm.trans hsame)
    rcases hno with hshared | hlazy | hother
    · simp [hshared] at hkind
    · simp [hlazy] at hkind
    · exact hother _ hrange hfunction
  · have hnone := hforsaken.blockAt?_eq_none hcode hcontains
    exact ⟨hnone, hinStep.funcRangeAt?_eq_none hcode hlists hnone⟩

/-- In a module with one function whose optimized tier could not be installed, the function is found in
the first tier, and nothing where the other tier was. -/
theorem function_lookups_agree_after_failure :
    ∃ (p : Process) (code : ModuleCode) (tier2 : Block), Reachable p ∧ code ∈ p.codes ∧
      (∃ located block tier, code.funcRangeAt? 0x200000000000 = some located ∧
        code.blockAt? 0x200000000000 = some block ∧ block.range? 0x200000000000 = some located.range ∧
        block.tier = .ok tier ∧ code.tierOfRange located = .ok (some tier)) ∧
      Forsaken tier2 p ∧ tier2.contains 0x200000013000 = true ∧
      code.funcRangeAt? 0x200000013000 = none := by
  obtain ⟨code, engine, found, tier2, index, failure, failure', unmade, made, begun, built, registered, t,
    installed, hload, hentry, hmade, hbegin, hbuild, hcontains, -, -, hfails, -, -, hfound, -⟩ :=
    load_oneFunction_failing
  have hloaded := reachable_start.step (.load hload)
  have hunmade := hloaded.step
    (.entry (.inr fun _ => rfl) (Op.ending_of_error hentry) (by rintro _ ⟨⟩))
  have hasked := hunmade.step (.entry (.inr fun _ => rfl) (Op.ending_of_ok hmade) (by rintro _ ⟨⟩))
  have hforsaken := Forsaken.fails hasked hbegin hbuild hfails
  have hreach := hforsaken.liesApart.1
  obtain ⟨hagree, htier, -, -⟩ := function_lookups_agree hreach List.mem_cons_self 0x200000000000
  obtain ⟨-, -, -, hnothing⟩ := function_lookups_agree hreach List.mem_cons_self 0x200000013000
  obtain ⟨located, hlocated⟩ := Option.isSome_iff_exists.mp hfound
  obtain ⟨block, hat, -, hrange, -, -⟩ := (hagree located).mp hlocated
  obtain ⟨tier, htier, hsame⟩ := htier located block hlocated hat
  exact ⟨_, t.code, tier2, hreach, List.mem_cons_self,
    ⟨located, block, tier, hlocated, hat, hrange, htier, hsame⟩, hforsaken, hcontains,
    (hnothing tier2 hforsaken hcontains).2⟩

end Process

end CompiledCode

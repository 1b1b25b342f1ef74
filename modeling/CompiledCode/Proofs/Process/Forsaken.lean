import CompiledCode.Proofs.Process.Run

/-!
# Tiers whose install has failed

An install that fails gives up the tier that it has built. The memory of that tier is given back
sooner or later, and may then be mapped for something else. Until this happens, no block of any
module has an address of the tier: as long as the memory is there, the tier is like a block that
waits, which everything placed later lies apart from, and where nothing is mapped there are no blocks.
-/

namespace CompiledCode

/-- The memory of a segment, as its address and length. -/
def Segment.stretch (segment : Segment) : Nat × Nat := (segment.base, segment.capacity)

namespace Process

/-- A tier that an install has built and then given up, in the process that is left, for as long as
none of its memory is mapped anew. An install that fails earlier has not built any tier. -/
inductive Forsaken (tier2 : Block) : Process → Prop where
  /-- The install has just failed. -/
  | fails {engine : Engine} {placed : List Block} {codes : List ModuleCode} {code : ModuleCode}
      {compiler : StubCompiler} {plan : PatchPlan} {compiled : CompiledBlock} {failure : Failure}
      {s u t : Running} (hreach : Reachable { engine, placed, codes := code :: codes })
      (hbegin : Running.beginInstall compiled.kind { engine, code } = .ok () s)
      (hbuild : Running.buildOptimized plan compiled s = .ok tier2 u)
      (hfails : Running.installOptimized compiler plan compiled { engine, code } =
        .error (.failure failure) t) :
    Forsaken tier2 { engine := t.engine, placed, codes := t.code :: codes }
  /-- Something else happens. -/
  | step {p q : Process} (hforsaken : Forsaken tier2 p) (hstep : Step p q)
      (hleft : ∀ mapping ∈ q.engine.memory.mapped,
        mapping ∈ p.engine.memory.mapped ∨ Apart mapping tier2.segment.stretch) :
    Forsaken tier2 q

/-- Whether a block lies apart from all that a process holds, as if it waited there, or nothing is mapped
in its place. -/
inductive LiesApart (block : Block) (process : Process) : Prop where
  /-- The block is still in memory. -/
  | mapped (hinStep : InStep process.engine.memory { process with placed := process.placed ++ [block] })
  /-- The memory of the block has been given back. -/
  | unmapped (hstop : block.stop ≤ block.segment.capacity)
      (hgone : ∀ mapping ∈ process.engine.memory.mapped, Apart mapping block.segment.stretch)

variable {p q : Process} {block other tier2 : Block} {pc : Nat}

/-- Whatever happens next can happen while one more block waits, unless the memory of that block is given
back. -/
theorem Step.beside (hstep : Step p q) (block : Block) :
    Step { p with placed := p.placed ++ [block] } { q with placed := q.placed ++ [block] } ∨
      block.isEmpty = false ∧
        q = { p with
          engine := { p.engine with memory := p.engine.memory.unmap block.segment.stretch } } := by
  cases hstep with
  | reorder hplaced hcodes => exact .inl (.reorder (hplaced.append_right _) hcodes)
  | place hend => exact .inl (.place hend)
  | placeFails hend => exact .inl (.placeFails hend)
  | discard => exact .inl .discard
  | create hend => exact .inl (.create hend)
  | createFails hend => exact .inl (.createFails hend)
  | load hend => exact .inl (.load hend)
  | loadFails hend => exact .inl (.loadFails hend)
  | entry hasks hend hcalm => exact .inl (.entry hasks hend hcalm)
  | install hend hcalm => exact .inl (.install hend hcalm)
  | dispatch => exact .inl .dispatch
  | label => exact .inl .label
  | drop hend => exact .inl (.drop hend)
  | @unmap _ mapping hspares =>
    by_cases hown : block.isEmpty = false ∧ block.segment.stretch = mapping
    · obtain ⟨hsome, rfl⟩ := hown
      exact .inr ⟨hsome, rfl⟩
    · refine .inl (.unmap ⟨hspares.mapped, fun waiting hin => ?_, hspares.segments⟩)
      rw [held, List.append_assoc] at hin
      rcases List.mem_append.mp hin with hplaced | hrest
      · exact hspares.blocks waiting (List.mem_append_left _ hplaced)
      · rcases List.mem_cons.mp hrest with rfl | hblocks
        · by_cases hempty : waiting.isEmpty = true
          · exact .inl hempty
          · exact .inr fun hsame => hown ⟨Bool.eq_false_of_not_eq_true hempty, hsame⟩
        · exact hspares.blocks waiting (List.mem_append_right _ hblocks)

/-- A block goes on lying apart whatever happens next, unless its memory is mapped anew. -/
theorem LiesApart.step (h : LiesApart block p) (hstep : Step p q)
    (hleft : ∀ mapping ∈ q.engine.memory.mapped,
      mapping ∈ p.engine.memory.mapped ∨ Apart mapping block.segment.stretch) :
    LiesApart block q := by
  cases h with
  | mapped hinStep =>
    rcases hstep.beside block with hbeside | ⟨hsome, rfl⟩
    · exact .mapped (hbeside.inStep hinStep)
    · have hheld : block ∈ held { p with placed := p.placed ++ [block] } :=
        List.mem_append_left _ (List.mem_append_right _ List.mem_cons_self)
      have hfull : ¬block.isEmpty = true := by simp [hsome]
      obtain ⟨hin, hstop, -⟩ := (hinStep.hosted block hheld).resolve_left hfull
      -- What is left of the mappings lies apart from the one that is given back.
      have happart := ((List.perm_cons_erase hin).pairwise_iff fun h => symm h).mp hinStep.sound.apart
      exact .unmapped hstop fun mapping hmapping =>
        symm ((List.pairwise_cons.mp happart).1 mapping hmapping)
  | unmapped hstop hgone =>
    exact .unmapped hstop fun mapping hin => (hleft mapping hin).elim (hgone mapping) id

/-- No block that is held has an address of a block that lies apart. -/
theorem LiesApart.not_contains {since : Memory} (h : LiesApart block p) (hp : InStep since p)
    (hother : other ∈ p.held) (hcontains : block.contains pc = true) : other.contains pc = false := by
  cases h with
  | mapped hinStep =>
    have hperm : (p.placed ++ [block] ++ p.blocks).Perm (block :: p.held) := by
      rw [List.append_assoc]
      exact List.perm_middle
    have hclear := (hperm.pairwise_iff fun h => symm h).mp hinStep.clear
    exact ((List.pairwise_cons.mp hclear).1 other hother).not_contains hcontains
  | unmapped hstop hgone =>
    refine Bool.eq_false_iff.mpr fun hboth => ?_
    have hfull : ¬other.isEmpty = true := by simp [Block.isEmpty_of_contains hboth]
    obtain ⟨hin, hcapacity, -⟩ := (hp.hosted other hother).resolve_left hfull
    have happart := hgone _ hin
    simp only [Block.contains, Bool.and_eq_true, decide_eq_true_eq] at hcontains hboth
    simp only [Block.base, Block.length] at hcontains hboth
    simp only [Apart, Segment.stretch] at happart
    omega

end Process

namespace Running

variable {s t u : Running} {since : Memory} {placed : List Block} {others : List ModuleCode}
  {compiler : StubCompiler} {plan : PatchPlan} {compiled : CompiledBlock} {tier2 : Block}
  {failure : Failure}

/-- An install that fails leaves the tier that it has built as if it waited. -/
theorem InStep.of_failed_install (h : s.InStep since placed others)
    (hbegin : beginInstall compiled.kind s = .ok () t) (hbuild : buildOptimized plan compiled t = .ok tier2 u)
    {last : Running} (hfails : installOptimized compiler plan compiled s = .error (.failure failure) last) :
    last.InStep since (tier2 :: placed) others := by
  have hbegun : t.InStep since placed others := h.congr ((beginInstall_sameIndexes _).of_ok hbegin)
  obtain ⟨hbuilt, hcode, hserial, hlt, -⟩ := (buildOptimized_inStep hbegun plan compiled).of_ok hbuild
  have hinstall : (installOptimized compiler plan compiled).Ensures s (fun _ _ => True)
      (fun fault last => fault.isViolation = false → last.InStep since (tier2 :: placed) others) := by
    rw [installOptimized, Op.ensures_bind, Op.ensures_iff_of_ok hbegin, Op.ensures_onFailure,
      installTier_eq, Op.ensures_bind, Op.ensures_iff_of_ok hbuild]
    refine (finishTier_inStep hbuilt (hcode ▸ hserial) hlt).mono (fun _ _ _ => trivial)
      (fun fault v hv => ?_)
    cases fault with
    | violation violation => exact nofun
    | failure failure => exact (ensures_change _).mpr fun _ => (hv.2.2 rfl).withTier2 .absent
  exact hinstall.of_error hfails rfl

end Running

namespace Process

variable {p : Process} {tier2 : Block}

/-- A tier whose install has failed lies apart from everything in the process. -/
theorem Forsaken.liesApart (h : Forsaken tier2 p) : Reachable p ∧ LiesApart tier2 p := by
  induction h with
  | @fails engine placed codes code compiler plan compiled failure s u t hreach hbegin hbuild hfails =>
    have hrunning : Running.InStep ⟨engine, code⟩ engine.memory placed codes := hreach.inStep
    have hfailed := hrunning.of_failed_install hbegin hbuild hfails
    refine ⟨hreach.step (.install (Op.ending_of_error hfails) (by rintro _ ⟨⟩)), .mapped ?_⟩
    exact (Process.InStep.now hfailed).perm (List.perm_append_singleton _ _).symm (.refl _)
  | step _ hstep hleft ih => exact ⟨ih.1.step hstep, ih.2.step hstep hleft⟩

/-- No module has a block where a tier is whose install has failed. -/
theorem Forsaken.blockAt?_eq_none (h : Forsaken tier2 p) {code : ModuleCode} (hcode : code ∈ p.codes)
    {pc : Nat} (hcontains : tier2.contains pc = true) : code.blockAt? pc = none := by
  obtain ⟨hreach, happart⟩ := h.liesApart
  refine Option.eq_none_iff_forall_ne_some.mpr fun block hat => ?_
  obtain ⟨hblock, hboth⟩ := (hreach.inStep.blockAt?_eq_some_iff hcode pc block).mp hat
  have hheld : block ∈ p.held := List.mem_append_right _ (List.mem_flatMap.mpr ⟨code, hcode, hblock⟩)
  have hnot := happart.not_contains hreach.inStep hheld hcontains
  exact absurd (hnot.symm.trans hboth) Bool.false_ne_true

end Process

end CompiledCode

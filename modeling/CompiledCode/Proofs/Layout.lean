import CompiledCode.Proofs.Block
import CompiledCode.Stubs.Layout

/-!
# Proper stub compilers

A stub compiler is proper if it does nothing but answer, with a failure or with stubs of which a block
can be assembled. One that lays stubs out by rule is: its stubs follow each other, and their code
ranges do so too. Only if it is told to ask for an install, or to answer with stubs that were given to
it, is it not.
-/

namespace CompiledCode

/-- Whether a compiler asks for no install, and makes stubs of which a block can be assembled if any. -/
structure StubCompiler.Proper (compiler : StubCompiler) : Prop where
  quiet : ∀ tier, compiler.asksForInstall tier = false
  assembles : ∀ {tier requests stubs}, compiler.compile tier requests = .ok stubs → stubs.Assembles

/-- Stubs whose tables are in order, with the ranges in the code, can be assembled. -/
theorem CompiledStubs.assembles_of_inOrder {stubs : CompiledStubs}
    (hinOrder : { stubs.tables with funcs := {} }.disorder? = none)
    (hinside : Block.rangesInside 0 stubs.code.length stubs.tables = true) : stubs.Assembles := by
  have hshifted := (CodeTables.disorder?_shift { stubs.tables with funcs := {} } 0).trans hinOrder
  have hwithin : Block.rangesInside 0 (0 + stubs.code.length)
      ({ stubs.tables with funcs := {} }.shift 0) = true := (Block.rangesInside_shift ..).trans hinside
  obtain ⟨block, hblock⟩ := Block.exists_assemble_eq_ok ⟨Nat.zero_le _, Nat.le_refl _⟩ hshifted hwithin
    .lazyStubs
  exact ⟨{ base := 0, capacity := stubs.code.length }, _, 0, block, hblock⟩

namespace StubLayout

/-- The code ranges of one stub follow each other in the stub. -/
theorem rangesAt_orderly (layout : StubLayout) (func offset : Nat) :
    (layout.rangesAt func offset).Pairwise (fun a b => a.stop ≤ b.start) ∧
      ∀ range ∈ layout.rangesAt func offset,
        offset ≤ range.start ∧ range.stop ≤ offset + layout.stride := by
  rw [rangesAt, stride]
  split <;> split <;> simp <;> omega

/-- The code ranges of stubs that are laid out follow each other in the code. -/
theorem layOut_orderly (layout : StubLayout) (offset : Nat) (funcs : List Nat) :
    (layout.layOut offset funcs).tables.ranges.Pairwise (fun a b => a.stop ≤ b.start) ∧
      ∀ range ∈ (layout.layOut offset funcs).tables.ranges,
        offset ≤ range.start ∧ range.stop ≤ offset + (layout.layOut offset funcs).code.length := by
  induction funcs generalizing offset with
  | nil => exact ⟨.nil, List.forall_mem_nil _⟩
  | cons func rest ih =>
    obtain ⟨hranges, hwithin⟩ := layout.rangesAt_orderly func offset
    obtain ⟨hothers, hbehind⟩ := ih (offset + layout.stride)
    rw [layOut, List.length_append, List.length_replicate]
    refine ⟨List.pairwise_append.mpr ⟨hranges, hothers, fun a ha b hb => ?_⟩, fun range hrange => ?_⟩
    · exact Nat.le_trans (hwithin a ha).2 (hbehind b hb).1
    · rcases List.mem_append.mp hrange with hin | hin
      · have hbounds := hwithin range hin
        omega
      · have hbounds := hbehind range hin
        omega

/-- Stubs that are laid out have no tables but that of code ranges. -/
theorem tables_layOut (layout : StubLayout) (offset : Nat) (funcs : List Nat) :
    (layout.layOut offset funcs).tables =
      { ranges := (layout.layOut offset funcs).tables.ranges } := by
  cases funcs <;> rfl

/-- A block can be assembled of stubs that are laid out. -/
theorem layOut_assembles (layout : StubLayout) (funcs : List Nat) :
    (layout.layOut 0 funcs).Assembles := by
  obtain ⟨hchained, hwithin⟩ := layout.layOut_orderly 0 funcs
  refine CompiledStubs.assembles_of_inOrder ?_ ?_
  · rw [tables_layOut]
    refine CodeTables.disorder?_eq_none_iff.mpr ⟨chained_of_pairwise ?_, rfl, rfl, rfl, rfl, rfl⟩
    exact hchained.imp fun hle => decide_eq_true hle
  · rw [Block.rangesInside]
    split
    · rename_i last _ hlast
      have hstop := (hwithin last (List.mem_of_getLast? hlast)).2
      simpa using hstop
    · rfl

/-- A compiler that lays stubs out is proper unless it is told otherwise. -/
theorem proper {layout : StubLayout} (hquiet : layout.asksForInstall = false)
    (hexplicit : layout.explicit = none) : layout.compiler.Proper := by
  refine ⟨fun tier => by rw [compiler]; simp only [hquiet, Bool.false_and], ?_⟩
  intro tier requests stubs hcompile
  have hstubs : layout.stubsFor (requests.map (·.func)) = stubs := by
    rw [compiler] at hcompile
    dsimp only at hcompile
    split at hcompile
    · split at hcompile
      · contradiction
      · exact Except.ok.inj hcompile
    · exact Except.ok.inj hcompile
  rw [← hstubs, stubsFor, hexplicit]
  exact layout.layOut_assembles _

end StubLayout

end CompiledCode

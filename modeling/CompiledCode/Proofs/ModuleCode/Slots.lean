import CompiledCode.Proofs.JitEntries
import CompiledCode.Proofs.ModuleCode.Install

/-!
# Where calls lead

Once a tier is published, calls are led to its function bodies. Its jit entries, and those of the
stubs that were made for it, are offered to the functions, which leads no calls elsewhere and takes
no jit entry away.
-/

namespace CompiledCode.Running

open DispatchTables

variable {s : Running}

/-- Pointing the dispatch tables at a code range leads calls to it if it is a function body. -/
theorem redirectRange_ledTo (block : Block) (range : CodeRange) (before : DispatchTables) :
    (redirectRange block range).Ensures before (fun _ after => before.LedTo block [range] after)
      (fun _ _ => True) := by
  rw [redirectRange]
  split
  · rename_i func hfunc hkind
    exact setTiering_ledTo hfunc hkind before
  · rename_i func hfunc hkind
    refine (setJitEntryIfEmpty_offered ..).bind (fun _ after hafter => ?_) (fun _ _ _ => trivial)
    refine (Op.ensures_pure _).mpr (hafter.2.2.ledTo (bodyOf?_singleton_eq_none fun _ _ => ?_))
    simp [hkind]
  · rename_i hfunction hjit
    exact (Op.ensures_pure _).mpr (.refl (bodyOf?_singleton_eq_none hfunction))

/-- Offering a code range of a block fills a slot that was empty, if any. -/
theorem offerRange_offered {stubs : Block} {range : CodeRange} (hin : range ∈ stubs.tables.ranges)
    (before : DispatchTables) :
    (offerRange stubs range).Ensures before (fun _ after => before.Offered stubs.JitEntryAt after)
      (fun _ _ => True) := by
  rw [offerRange]
  split
  · rename_i func hfunc hkind
    refine (setJitEntryIfEmpty_offered ..).bind (fun _ after hafter => ?_) (fun _ _ _ => trivial)
    exact (Op.ensures_pure _).mpr (.of_range hin hkind hfunc hafter.2.2)
  · exact (Op.ensures_pure _).mpr (.refl before _)

/-- Once calls are redirected, they lead to the function bodies of the published tier. -/
theorem redirect_ledTo (tier2 : Block) (stubIndex : Option Nat) :
    (redirect tier2 stubIndex).Ensures s
      (fun _ t => s.code.dispatch.LedTo tier2 tier2.tables.ranges t.code.dispatch)
      (fun _ _ => True) := by
  have hround : (tier2.tables.ranges.forM fun range => onDispatch (redirectRange tier2 range)).Ensures s
      (fun _ t => s.code.dispatch.LedTo tier2 tier2.tables.ranges t.code.dispatch)
      (fun _ _ => True) := by
    refine Op.Ensures.forM_upTo
      (motive := fun done (t : Running) => s.code.dispatch.LedTo tier2 done t.code.dispatch)
      (fun done range t ht => ?_) (.refl fun _ => rfl)
    exact (onDispatch_content (redirectRange_ledTo tier2 range _)).mono
      (fun _ _ hu => ht.trans hu.1) (fun _ _ _ => trivial)
  refine hround.bind (fun _ t ht => ?_) (fun _ _ h => h)
  cases stubIndex with
  | none => exact (Op.ensures_pure _).mpr ht
  | some index =>
    rw [Op.ensures_bind, ensures_current]
    split
    · exact (Op.ensures_violate _).mpr trivial
    · refine Op.Ensures.forM (fun range hin u hu => ?_) ht
      refine (onDispatch_content (offerRange_offered hin _)).mono (fun _ v hv => ?_)
        (fun _ _ _ => trivial)
      have hboth := hu.trans (hv.1.ledTo fun _ => (rfl : bodyOf? [] _ = none))
      rwa [List.append_nil] at hboth

/-- Pointing the dispatch tables at a code range of a block keeps the jit entries there are. -/
theorem redirectRange_jitGrown {block : Block} {range : CodeRange} (hin : range ∈ block.tables.ranges)
    (before : DispatchTables) :
    (redirectRange block range).Ensures before
      (fun _ after => before.JitGrown block.JitEntryAt after) (fun _ _ => True) := by
  rw [redirectRange]
  split
  · exact setTiering_jitGrown ..
  · rename_i func hfunc hkind
    refine (setJitEntryIfEmpty_offered ..).bind (fun _ after hafter => ?_) (fun _ _ _ => trivial)
    exact (Op.ensures_pure _).mpr (Offered.of_range hin hkind hfunc hafter.2.2).toJitGrown
  · exact (Op.ensures_pure _).mpr (.of_jit_eq rfl)

/-- Going through the code ranges of a block keeps the jit entries there are if every round does. -/
theorem forM_jitGrown {block : Block} {round : CodeRange → Op DispatchTables Unit}
    (hround : ∀ range ∈ block.tables.ranges, ∀ tables, (round range).Ensures tables
      (fun _ after => tables.JitGrown block.JitEntryAt after) (fun _ _ => True)) :
    (block.tables.ranges.forM fun range => onDispatch (round range)).Ensures s
      (fun _ t => s.code.dispatch.JitGrown block.JitEntryAt t.code.dispatch) (fun _ _ => True) := by
  refine Op.Ensures.forM (fun range hin t ht => ?_) (.of_jit_eq rfl)
  exact (onDispatch_content (hround range hin _)).mono (fun _ _ hu => ht.trans hu.1)
    (fun _ _ _ => trivial)

/-- Redirecting calls keeps the jit entries there are, and adds those of the tier and of its stubs. -/
theorem redirect_jitGrown (tier2 : Block) (stubIndex : Option Nat) :
    (redirect tier2 stubIndex).Ensures s
      (fun _ t => s.code.dispatch.JitGrown
        (Block.JitEntryIn (tier2 :: (stubIndex.bind (s.code.blocks[·]?)).toList)) t.code.dispatch)
      (fun _ _ => True) := by
  have htier := (forM_jitGrown (s := s) fun range hin => redirectRange_jitGrown hin).and
    (forM_onDispatch_content tier2.tables.ranges (redirectRange tier2))
  refine htier.bind (fun _ t ht => ?_) (fun _ _ _ => trivial)
  obtain ⟨hgrown, dispatch, hcontent⟩ := ht
  cases stubIndex with
  | none => exact (Op.ensures_pure _).mpr (hgrown.mono fun _ _ => .of_mem List.mem_cons_self)
  | some index =>
    have hblocks : t.code.blocks = s.code.blocks := (congrArg ModuleCode.blocks hcontent :)
    rw [Op.ensures_bind, ensures_current, hblocks]
    split
    · exact (Op.ensures_violate _).mpr trivial
    · rename_i stubs hstubs
      have hoffers := forM_jitGrown (s := t) fun range (hin : range ∈ stubs.tables.ranges) tables =>
        (offerRange_offered hin tables).mono (fun _ _ h => h.toJitGrown) (fun _ _ h => h)
      refine hoffers.mono (fun _ u hu => ?_) (fun _ _ h => h)
      rw [Option.bind_some, hstubs]
      exact (hgrown.mono fun _ _ => .of_mem List.mem_cons_self).trans
        (hu.mono fun _ _ => .of_mem (List.mem_cons_of_mem _ List.mem_cons_self))

end CompiledCode.Running

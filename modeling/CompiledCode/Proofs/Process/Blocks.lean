import CompiledCode.Proofs.ModuleCode.Blocks
import CompiledCode.Proofs.Process.InStep

/-!
# Adding and taking back blocks in step

A block that waits to be owned lies apart from all others, so that neither the map of a module
nor the registry ever refuses it for where it lies. If there is no room for it in the second of
them it is taken out of the first again, and everything is as before.
-/

namespace CompiledCode

namespace Running

/-- The same code in the same engine with other indexes, and with memory grown or not. -/
def reindexed (s : Running) (memory : Memory) (registry blockMap : RegionMap Block) : Running where
  engine := { s.engine with memory, registry }
  code := { s.code with blockMap }

/-- Whether nothing but the indexes has changed, which hold the blocks of two lists. -/
def Reindexed (s t : Running) (own all : List Block) : Prop :=
  ∃ memory registry blockMap, t = s.reindexed memory registry blockMap ∧
    memory.claims = s.engine.memory.claims ∧ blockMap.Settled (filled own) ∧
    registry.Settled (filled all)

variable {s t : Running} {block : Block} {own all : List Block}

/-- Among the blocks listed only the block itself has its serial number, if the others have not. -/
theorem eq_of_serial_eq (hserial : ∀ other ∈ own, other.serial ≠ block.serial) :
    ∀ other ∈ filled (block :: own), other.serial = block.serial → other = block := by
  intro other hin hsame
  rcases List.mem_cons.mp hin.1 with rfl | hother
  · rfl
  · exact absurd hsame (hserial other hother)

/-- A block with code is taken out of the map of its module, which nothing can prevent. -/
theorem unmapBlock_settled (hmap : s.code.blockMap.Settled (filled (block :: own)))
    (hsome : block.isEmpty = false) (hserial : ∀ other ∈ own, other.serial ≠ block.serial) :
    (unmapBlock block).Ensures s
      (fun _ t => ∃ blockMap, t = { s with code := { s.code with blockMap } } ∧
        blockMap.Settled (filled own))
      (fun _ _ => False) := by
  have hin : block ∈ filled (block :: own) := ⟨List.mem_cons_self, hsome⟩
  have hnew : block ∉ own := fun hin => hserial block hin rfl
  rw [unmapBlock, Op.ensures_bind, ensures_onBlockMap]
  refine (hmap.remove hin (eq_of_serial_eq hserial)).mono (fun _ blockMap hafter => ?_)
    (fun _ _ h => h)
  rw [filled_cons_diff hsome hnew] at hafter
  exact (Op.ensures_pure _).mpr ⟨blockMap, rfl, hafter⟩

/-- A block with code is taken out of the registry, which nothing can prevent. -/
theorem unregisterBlock_settled (hregistry : s.engine.registry.Settled (filled (block :: all)))
    (hsome : block.isEmpty = false) (hserial : ∀ other ∈ all, other.serial ≠ block.serial) :
    (unregisterBlock block).Ensures s
      (fun _ t => ∃ registry, t = { s with engine := { s.engine with registry } } ∧
        registry.Settled (filled all))
      (fun _ _ => False) := by
  have hin : block ∈ filled (block :: all) := ⟨List.mem_cons_self, hsome⟩
  have hnew : block ∉ all := fun hin => hserial block hin rfl
  rw [unregisterBlock, Op.ensures_bind, ensures_onRegistry]
  refine (hregistry.remove hin (eq_of_serial_eq hserial)).mono (fun _ registry hafter => ?_)
    (fun _ _ h => h)
  rw [filled_cons_diff hsome hnew] at hafter
  exact (Op.ensures_pure _).mpr ⟨registry, rfl, hafter⟩

/-- A block apart from those registered is registered, too, or there is no room for it. -/
theorem register_settled (hregistry : s.engine.registry.Settled (filled all))
    (hcode : Region.start block < Region.stop block)
    (hapart : ∀ other ∈ filled all, Region.stop block ≤ Region.start other ∨
      Region.stop other ≤ Region.start block) (room : Bool) :
    (onRegistry (RegionMap.insert block room)).Ensures s
      (fun _ t => ∃ registry, t = { s with engine := { s.engine with registry } } ∧
        registry.Settled (insert block (filled all)))
      (fun fault t => fault.isViolation = false ∧
        ∃ registry, t = { s with engine := { s.engine with registry } } ∧
          registry.Settled (filled all)) :=
  (ensures_onRegistry _).mpr ((hregistry.insert hcode hapart room).mono
    (fun _ registry h => ⟨registry, rfl, h⟩) (fun _ registry h => ⟨h.1, registry, rfl, h.2⟩))

/-- A block apart from all others is entered into both indexes, or there is no room in one. -/
theorem registerBlock_reindexes (hmap : s.code.blockMap.Settled (filled own))
    (hregistry : s.engine.registry.Settled (filled all)) (hown : own ⊆ all)
    (hclear : ∀ other ∈ all, block.ClearOf other)
    (hserial : ∀ other ∈ all, other.serial ≠ block.serial) :
    (registerBlock block).Ensures s (fun _ t => s.Reindexed t (block :: own) (block :: all))
      (fun fault t => fault.isViolation = false ∧ s.Reindexed t own all) := by
  rw [registerBlock]
  split
  · rename_i hempty
    rw [Op.ensures_pure]
    refine ⟨_, _, _, rfl, rfl, ?_, ?_⟩
    · rw [filled_cons_of_isEmpty hempty]
      exact hmap
    · rw [filled_cons_of_isEmpty hempty]
      exact hregistry
  rename_i hfull
  have hsome : block.isEmpty = false := Bool.eq_false_of_not_eq_true hfull
  have hcode := Block.start_lt_stop hsome
  have hapart := Block.apart_of_clear hsome hclear
  rw [Op.ensures_bind, ensures_onMemory]
  refine Memory.askRoom_claims.mono (fun room memory hmemory => ?_) (fun _ _ h => h.elim)
  rw [Op.ensures_bind, ensures_onBlockMap]
  refine (hmap.insert hcode (fun other hin => hapart other ⟨hown hin.1, hin.2⟩) room).mono
    (fun _ blockMap hmapped => ?_)
    (fun _ blockMap hfault => ⟨hfault.1, _, _, _, rfl, hmemory, hfault.2, hregistry⟩)
  rw [← filled_cons hsome] at hmapped
  rw [Op.ensures_bind, ensures_onMemory]
  refine Memory.askRoom_claims.mono (fun room later hlater => ?_) (fun _ _ h => h.elim)
  rw [Op.ensures_onFailure]
  refine Op.Ensures.mono (Op.Ensures.during_of (register_settled ?_ hcode hapart room) fun _ _ h => h)
    (fun _ u hu => ?_) (fun fault u hu => ?_)
  · exact hregistry
  · obtain ⟨registry, rfl, hregistered⟩ := hu
    rw [← filled_cons hsome] at hregistered
    exact ⟨_, _, _, rfl, hlater.trans hmemory, hmapped, hregistered⟩
  · obtain ⟨hfailed, registry, rfl, hregistered⟩ := hu
    cases fault with
    | violation violation => contradiction
    | failure failure =>
      -- The block is in the map already, and only there.
      refine (unmapBlock_settled hmapped hsome fun other hin => hserial other (hown hin)).mono
        (fun _ v hv => ?_) (fun _ _ h => h.elim)
      obtain ⟨blockMap, rfl, hunmapped⟩ := hv
      exact ⟨rfl, _, _, _, rfl, hlater.trans hmemory, hunmapped, hregistered⟩

/-- A block that is listed is taken out of both indexes, which nothing can prevent. -/
theorem withdrawBlock_reindexes (hmap : s.code.blockMap.Settled (filled (block :: own)))
    (hregistry : s.engine.registry.Settled (filled (block :: all))) (hown : own ⊆ all)
    (hserial : ∀ other ∈ all, other.serial ≠ block.serial) :
    (withdrawBlock block).Ensures s (fun _ t => s.Reindexed t own all) (fun _ _ => False) := by
  rw [withdrawBlock]
  split
  · rename_i hempty
    rw [filled_cons_of_isEmpty hempty] at hmap hregistry
    exact (Op.ensures_pure _).mpr ⟨_, _, _, rfl, rfl, hmap, hregistry⟩
  · rename_i hfull
    have hsome : block.isEmpty = false := Bool.eq_false_of_not_eq_true hfull
    refine (unmapBlock_settled hmap hsome fun other hin => hserial other (hown hin)).bind
      (fun _ u hu => ?_) (fun _ _ h => h)
    obtain ⟨blockMap, rfl, hunmapped⟩ := hu
    refine Op.Ensures.mono (unregisterBlock_settled ?_ hsome hserial) (fun _ v hv => ?_)
      (fun _ _ h => h)
    · exact hregistry
    · obtain ⟨registry, rfl, hunregistered⟩ := hv
      exact ⟨_, _, _, rfl, rfl, hunmapped, hunregistered⟩

/-- Blocks are taken out of the registry one after the other. -/
theorem unregister_settled {blocks : List Block}
    (hregistry : s.engine.registry.Settled (filled (blocks ++ all)))
    (hserials : ((blocks ++ all).map Block.serial).Nodup) :
    (blocks.forM fun block => if block.isEmpty then pure () else unregisterBlock block).Ensures s
      (fun _ t => ∃ registry, t = { s with engine := { s.engine with registry } } ∧
        registry.Settled (filled all))
      (fun _ _ => False) := by
  induction blocks generalizing s with
  | nil => exact (Op.ensures_pure _).mpr ⟨_, rfl, hregistry⟩
  | cons block rest ih =>
    obtain ⟨hnew, hrest⟩ := List.nodup_cons.mp hserials
    change ((if block.isEmpty then pure () else unregisterBlock block) >>= fun _ =>
      rest.forM fun block => if block.isEmpty then pure () else unregisterBlock block).Ensures s _ _
    split
    · rename_i hempty
      rw [List.cons_append, filled_cons_of_isEmpty hempty] at hregistry
      exact (Op.ensures_bind _ _).mpr ((Op.ensures_pure _).mpr (ih hregistry hrest))
    · rename_i hfull
      have hserial : ∀ other ∈ rest ++ all, other.serial ≠ block.serial :=
        fun other hin hsame => hnew (hsame ▸ List.mem_map_of_mem hin)
      refine (unregisterBlock_settled hregistry (Bool.eq_false_of_not_eq_true hfull) hserial).bind
        (fun _ u hu => ?_) (fun _ _ h => h)
      obtain ⟨registry, rfl, hunregistered⟩ := hu
      exact (ih hunregistered hrest).mono
        (fun _ v ⟨later, hv, hlater⟩ => ⟨later, hv, hlater⟩) (fun _ _ h => h)

/-- Whether a module's code is in step with placed blocks and with the code of other modules. -/
def InStep (s : Running) (since : Memory) (placed : List Block) (others : List ModuleCode) : Prop :=
  Process.InStep since { engine := s.engine, placed, codes := s.code :: others }

variable {since : Memory} {placed : List Block} {others : List ModuleCode}

/-- As long as nothing is unmapped and no claim is given back, the module stays in step. -/
theorem InStep.withMemory {memory : Memory} (h : s.InStep since placed others)
    (hkeeps : s.engine.memory.Keeps memory) :
    InStep { s with engine := { s.engine with memory } } since placed others :=
  Process.InStep.withMemory h hkeeps

/-- New indexes of the same blocks change nothing. -/
theorem InStep.reindexed (h : s.InStep since placed others)
    (ht : s.Reindexed t s.code.blocks (s.code.blocks ++ others.flatMap (·.blocks))) :
    t.InStep since placed others ∧ t.code.blocks = s.code.blocks := by
  obtain ⟨memory, registry, blockMap, rfl, hclaims, hmap, hregistry⟩ := ht
  obtain ⟨hbacked, hothers⟩ := List.forall_mem_cons.mp (h.withMemory (h.sound.keeps hclaims)).backed
  refine ⟨{ h.withMemory (h.sound.keeps hclaims) with
    backed := List.forall_mem_cons.mpr ⟨hbacked, hothers⟩
    maps := List.forall_mem_cons.mpr ⟨hmap, (List.forall_mem_cons.mp h.maps).2⟩
    registry := hregistry }, rfl⟩

/-- A placed block that has been entered into the indexes becomes the last one of the module. -/
theorem InStep.concat (h : s.InStep since (block :: placed) others)
    (hserial : ∀ other ∈ s.code.blocks ++ others.flatMap (·.blocks), other.serial ≠ block.serial)
    (hlt : block.serial < s.engine.nextSerial)
    (ht : s.Reindexed t (block :: s.code.blocks)
      (block :: (s.code.blocks ++ others.flatMap (·.blocks)))) :
    InStep { t with code := t.code.withBlock block } since placed others := by
  obtain ⟨memory, registry, blockMap, rfl, hclaims, hmap, hregistry⟩ := ht
  have hkept := h.withMemory (h.sound.keeps hclaims)
  have hown : (s.code.blocks ++ [block]).Perm (block :: s.code.blocks) :=
    List.perm_append_singleton _ _
  have hall : (s.code.blocks ++ [block] ++ others.flatMap (·.blocks)).Perm
      (block :: (s.code.blocks ++ others.flatMap (·.blocks))) := hown.append_right _
  have hheld : (placed ++ (s.code.blocks ++ [block] ++ others.flatMap (·.blocks))).Perm
      (block :: placed ++ (s.code.blocks ++ others.flatMap (·.blocks))) :=
    (hall.append_left placed).trans List.perm_middle
  have hnew : block.serial ∉ (s.code.blocks ++ others.flatMap (·.blocks)).map Block.serial := by
    intro hin
    obtain ⟨other, hother, hsame⟩ := List.mem_map.mp hin
    exact hserial other hother hsame
  obtain ⟨hbacked, hothers⟩ := List.forall_mem_cons.mp hkept.backed
  exact
    { kept := hkept.kept
      hosted := fun other hin => hkept.hosted other (hheld.mem_iff.mp hin)
      clear := (hheld.pairwise_iff fun hclear => symm hclear).mpr hkept.clear
      backed := List.forall_mem_cons.mpr ⟨hbacked, hothers⟩
      serials := (hall.map _).nodup_iff.mpr (List.nodup_cons.mpr ⟨hnew, h.serials⟩)
      fresh := fun other hin =>
        (List.forall_mem_cons (p := (·.serial < s.engine.nextSerial))).mpr ⟨hlt, h.fresh⟩ other
          (hall.mem_iff.mp hin)
      maps := List.forall_mem_cons.mpr
        ⟨filled_perm hown ▸ hmap, (List.forall_mem_cons.mp h.maps).2⟩
      registry := filled_perm hall ▸ hregistry }

/-- A placed block becomes the last one of the module, or there is no room for it. -/
theorem addBlock_inStep (h : s.InStep since (block :: placed) others)
    (hserial : ∀ other ∈ s.code.blocks ++ others.flatMap (·.blocks), other.serial ≠ block.serial)
    (hlt : block.serial < s.engine.nextSerial) :
    (addBlock block).Ensures s
      (fun _ t => t.InStep since placed others ∧ t.code.blocks = s.code.blocks ++ [block] ∧
        t.engine.nextSerial = s.engine.nextSerial)
      (fun fault t => fault.isViolation = false ∧ t.InStep since (block :: placed) others ∧
        t.code.blocks = s.code.blocks) := by
  rw [addBlock, Op.ensures_bind, ensures_onMemory]
  refine (Memory.grow_claims _).mono (fun _ memory hmemory => ?_) (fun fault memory hfault => ?_)
  case refine_2 => exact ⟨hfault.1, h.withMemory (h.sound.keeps hfault.2), rfl⟩
  have hgrown := h.withMemory (h.sound.keeps hmemory)
  have hclear : ∀ other ∈ s.code.blocks ++ others.flatMap (·.blocks), block.ClearOf other :=
    fun other hin => (List.pairwise_cons.mp h.clear).1 other (List.mem_append_right placed hin)
  refine Op.Ensures.bind (registerBlock_reindexes (List.forall_mem_cons.mp hgrown.maps).1
    hgrown.registry (List.subset_append_left _ _) hclear hserial) (fun _ t ht => ?_)
    (fun fault t hfault => ?_)
  · rw [appendBlock, Op.ensures_bind, ensures_current, Op.ensures_bind, ensures_change,
      Op.ensures_pure]
    refine ⟨InStep.concat hgrown hserial hlt ht, ?_⟩
    obtain ⟨memory, registry, blockMap, rfl, -⟩ := ht
    exact ⟨rfl, rfl⟩
  · exact ⟨hfault.1, hgrown.reindexed hfault.2⟩

/-- The last block is taken back, which nothing can prevent, and waits again. -/
theorem popBlock_inStep (h : s.InStep since placed others) {front : List Block}
    (hblocks : s.code.blocks = front ++ [block]) :
    (popBlock block).Ensures s
      (fun _ t => t.InStep since (block :: placed) others ∧ t.code.blocks = front)
      (fun _ _ => False) := by
  have hown : s.code.blocks.Perm (block :: front) := hblocks ▸ List.perm_append_singleton _ _
  have hall : (s.code.blocks ++ others.flatMap (·.blocks)).Perm
      (block :: (front ++ others.flatMap (·.blocks))) := hown.append_right _
  have hfront : s.code.withoutLast.blocks = front := by
    rw [ModuleCode.withoutLast, hblocks, List.dropLast_concat]
  have hserials := (hall.map Block.serial).nodup_iff.mp h.serials
  obtain ⟨hnew, hrest⟩ := List.nodup_cons.mp hserials
  have hserial : ∀ other ∈ front ++ others.flatMap (·.blocks), other.serial ≠ block.serial :=
    fun other hin hsame => hnew (hsame ▸ List.mem_map_of_mem hin)
  have hlast : (some block).any (·.serial = block.serial) = true := decide_eq_true rfl
  rw [popBlock, Op.ensures_bind, ensures_current, Op.ensures_bind, ensures_change, Op.ensures_bind,
    Op.ensures_require, hblocks, List.getLast?_concat, if_pos hlast]
  refine Op.Ensures.mono (withdrawBlock_reindexes ?_ ?_ (List.subset_append_left front _) hserial)
    (fun _ t ht => ?_) (fun _ _ h => h)
  · exact filled_perm hown ▸ (List.forall_mem_cons.mp h.maps).1
  · exact filled_perm hall ▸ h.registry
  · obtain ⟨memory, registry, blockMap, rfl, hclaims, hmap, hregistry⟩ := ht
    refine ⟨(h.withMemory (h.sound.keeps hclaims)).release ?_ rfl ?_ ?_, hfront⟩
    · exact hfront ▸ hown
    · exact hfront ▸ hmap
    · exact hfront ▸ hregistry

/-- When the code of a module goes away, the rest of the process stays in step. -/
theorem retire_inStep (h : s.InStep since placed others) :
    retire.Ensures s
      (fun _ t => Process.InStep since { engine := t.engine, placed, codes := others })
      (fun _ _ => False) := by
  rw [retire, Op.ensures_bind, ensures_current, Op.ensures_bind, ensures_onEngine, Op.ensures_modify]
  have hserials : ((s.code.blocks ++ others.flatMap (·.blocks)).map Block.serial).Nodup := h.serials
  refine Op.Ensures.mono (unregister_settled ?_ hserials) (fun _ t ht => ?_) (fun _ _ h => h)
  · exact h.registry
  obtain ⟨registry, rfl, hregistry⟩ := ht
  have hheld : (placed ++ others.flatMap (·.blocks)).Sublist
      (placed ++ (s.code.blocks ++ others.flatMap (·.blocks))) :=
    (List.sublist_append_right _ _).append_left placed
  exact
    { kept := h.kept
      hosted := fun block hin => h.hosted block (hheld.subset hin)
      clear := h.clear.sublist hheld
      backed := (List.forall_mem_cons.mp h.backed).2
      serials := h.serials.sublist ((List.sublist_append_right _ _).map _)
      fresh := fun block hin => h.fresh block (List.mem_append_right _ hin)
      maps := (List.forall_mem_cons.mp h.maps).2
      registry := hregistry }

end Running

end CompiledCode

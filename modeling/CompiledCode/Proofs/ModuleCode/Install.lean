import CompiledCode.ModuleCode.Install
import CompiledCode.Proofs.ModuleCode.Stubs

/-!
# What the parts of an install leave behind

Upgrading the entry stubs makes new stubs for the exports of first-tier functions, in their order, and
leaves the other exports as they are. As with other stubs, an upgrade that does not come to its end
leaves nothing but a note of the call to the stub compiler.
-/

namespace CompiledCode

/-- The place of a tier that has a block is filled with it. -/
theorem OptimizedTier.eq_published_of_block? {place : OptimizedTier} {tier2 : Block}
    (h : place.block? = some tier2) : place = .published tier2 := by
  cases place with
  | absent => contradiction
  | building => contradiction
  | published block => rw [Option.some.inj h]

/-- The functions that an upgrade makes new stubs for. -/
def upgradedFuncs (oldKind : BlockKind) (exports : List LazyExport) : List Nat :=
  (exports.filter fun lazyExport => decide (lazyExport.kind = oldKind)).map (·.func)

/-- An export of the kind to upgrade is upgraded first. -/
theorem upgradedFuncs_cons_of_eq {oldKind : BlockKind} {lazyExport : LazyExport}
    (h : lazyExport.kind = oldKind) (rest : List LazyExport) :
    upgradedFuncs oldKind (lazyExport :: rest) = lazyExport.func :: upgradedFuncs oldKind rest := by
  rw [upgradedFuncs, List.filter_cons_of_pos (by simpa using h), List.map_cons, upgradedFuncs]

/-- An export of another kind is passed over. -/
theorem upgradedFuncs_cons_of_ne {oldKind : BlockKind} {lazyExport : LazyExport}
    (h : lazyExport.kind ≠ oldKind) (rest : List LazyExport) :
    upgradedFuncs oldKind (lazyExport :: rest) = upgradedFuncs oldKind rest := by
  rw [upgradedFuncs, List.filter_cons_of_neg (by simpa using h), upgradedFuncs]

namespace Running

variable {s : Running} {compiler : StubCompiler}

/-- New stubs are requested for the first-tier functions, in the order of their exports, and call them
at their addresses in the new tier. -/
theorem upgradeRequests_eq_ok {tier1Kind : BlockKind} {tier2 : Block} {exports : List LazyExport}
    {requests : List StubRequest} (h : upgradeRequests tier1Kind tier2 exports = .ok requests) :
    requests.map (·.func) = upgradedFuncs tier1Kind exports ∧
      ∀ request ∈ requests, tier2.funcEntry? request.func = some request.callee := by
  induction exports generalizing requests with
  | nil =>
    cases h
    exact ⟨rfl, List.forall_mem_nil _⟩
  | cons lazyExport rest ih =>
    rw [upgradeRequests] at h
    split at h
    · rename_i hkind
      rw [upgradedFuncs_cons_of_ne hkind]
      exact ih h
    · rename_i hkind
      rw [upgradedFuncs_cons_of_eq (not_not.mp hkind)]
      split at h
      · contradiction
      · split at h
        · contradiction
        · rename_i address hcallee
          split at h
          · contradiction
          · rename_i others hothers
            cases h
            obtain ⟨hfuncs, hcallees⟩ := ih hothers
            rw [List.map_cons, hfuncs, List.forall_mem_cons]
            exact ⟨rfl, funcEntry?_of_callee hcallee, hcallees⟩

/-- Without new stubs the exports stay as they are. -/
theorem repoint_nil (tier1Kind newKind : BlockKind) (index : Nat) (exports : List LazyExport) :
    repoint tier1Kind newKind index exports [] = exports := by
  cases exports <;> rfl

/-- Exports of first-tier functions are pointed at the entries given for them, one by one, and other
exports stay as they are. -/
theorem repoint_forall₂ {tier1Kind newKind : BlockKind} {index : Nat}
    {entering : Nat → StubEntries → Prop} {exports : List LazyExport} {entries : List StubEntries}
    (h : List.Forall₂ entering (upgradedFuncs tier1Kind exports) entries) :
    List.Forall₂ (fun before after : LazyExport =>
        if before.kind = tier1Kind then
          ∃ found : StubEntries, entering before.func found ∧
            after = { before with blockIndex := index, rangeIndex := found.interp, kind := newKind }
        else after = before)
      exports (repoint tier1Kind newKind index exports entries) := by
  induction exports generalizing entries with
  | nil => exact .nil
  | cons lazyExport rest ih =>
    by_cases hkind : lazyExport.kind = tier1Kind
    · rw [upgradedFuncs_cons_of_eq hkind] at h
      obtain ⟨found, more, hfound, hmore, rfl⟩ := List.forall₂_cons_left_iff.mp h
      rw [repoint, if_neg (not_not.mpr hkind)]
      refine .cons ?_ (ih hmore)
      rw [if_pos hkind]
      exact ⟨found, hfound, rfl⟩
    · rw [upgradedFuncs_cons_of_ne hkind] at h
      cases entries with
      | nil =>
        have hrest := ih h
        rw [repoint_nil] at hrest ⊢
        exact .cons (by rw [if_neg hkind]) hrest
      | cons found more =>
        rw [repoint, if_pos hkind]
        exact .cons (by rw [if_neg hkind]) (ih h)

/-- An upgrade that finds no exports of the first tier changes nothing, and one that fails leaves nothing
but a note of the call to the stub compiler. -/
theorem upgradeStubs_attempts {tier2 : Block} (hquiet : compiler.asksForInstall tier2 = false) :
    (upgradeStubs compiler tier2).Ensures s
      (fun result t => result = none → t.code = s.code ∧
        ∀ lazyExport ∈ s.code.lazyExports, lazyExport.kind ≠ s.code.tier1.kind)
      (fun _ t =>
        Attempted tier2 (upgradedFuncs s.code.tier1.kind s.code.lazyExports) s.code t.code) := by
  refine upgradeStubs_ensures (motive := fun t => t.code = s.code) (fun hnone _ => ⟨rfl, hnone⟩)
    (fun _ => (onMemory_code _).mono (fun _ _ h => h) (fun _ t ht => .inl (by rw [ht])))
    (fun t _ ht => .inl (by rw [ht])) fun t requests ht hrequests => ?_
  rw [← (upgradeRequests_eq_ok hrequests).1, ← ht]
  exact (createStubs_content hquiet).mono (fun _ _ _ => nofun) (fun _ u hu => .inr hu)

/-- An install that begins takes the place of the tier, which nobody has taken before. -/
theorem beginInstall_ensures (kind : BlockKind) :
    (beginInstall kind).Ensures s
      (fun _ t => s.code.tier1.kind = .baselineTier ∧ kind = .optimizedTier ∧
        s.code.tier2 = .absent ∧ t = { s with code := s.code.withTier2 .building })
      (fun fault t => t = s ∧ (fault.isViolation = false → s.code.tier2 ≠ .absent)) := by
  exact beginInstall_ensures_of (fun _ _ => ⟨rfl, nofun⟩) (fun hpresent => ⟨rfl, fun _ => hpresent⟩)
    fun htier1 hkind habsent => ⟨htier1, hkind, habsent, rfl⟩

/-- Placing a tier leaves the code of the module alone, and keeps to what was compiled. -/
theorem buildOptimized_ensures (plan : PatchPlan) (compiled : CompiledBlock) :
    (buildOptimized plan compiled).Ensures s
      (fun tier2 t => tier2.kind = compiled.kind ∧
        (tier2.Covers compiled ∧ tier2.tables = compiled.tables) ∧ t.code = s.code)
      (fun _ t => t.code = s.code) := by
  rw [buildOptimized, Op.ensures_bind, ensures_current]
  refine (onMemory_ensures (Block.place_ensures ..)).bind (fun block t ht => ?_)
    (fun _ _ ht => ht.1)
  obtain ⟨ht, hmade⟩ := ht
  refine (onEngine_ensures (Engine.bindBlock_ensures ..)).mono (fun bound u hu => ?_)
    (fun _ u hu => by rw [hu.1, ht])
  obtain ⟨hu, rfl, -, hbindable⟩ := hu
  have hcovers := hmade.covers hbindable
  exact ⟨hmade.kind, ⟨⟨hcovers.coverage, hcovers.full⟩, hmade.tables⟩, by rw [hu, ht]⟩

/-- Going through code ranges to change the dispatch tables changes nothing else. -/
theorem forM_onDispatch_content (ranges : List CodeRange)
    (round : CodeRange → Op DispatchTables Unit) :
    (ranges.forM fun range => onDispatch (round range)).Ensures s
      (fun _ t => ∃ dispatch, t.code.content = s.code.content.withDispatch dispatch)
      (fun _ t => ∃ dispatch, t.code.content = s.code.content.withDispatch dispatch) := by
  refine Op.Ensures.forM (fun range _ t ht => ?_) ⟨s.code.dispatch, rfl⟩
  obtain ⟨dispatch, ht⟩ := ht
  exact (onDispatch_content (Op.ensures_true _ _)).mono
    (fun _ u hu => ⟨_, by rw [hu.2, ht]; rfl⟩) (fun _ u hu => ⟨_, by rw [hu.2, ht]; rfl⟩)

/-- Redirecting calls changes nothing but the dispatch tables. -/
theorem redirect_content (tier2 : Block) (stubIndex : Option Nat) :
    (redirect tier2 stubIndex).Ensures s
      (fun _ t => ∃ dispatch, t.code.content = s.code.content.withDispatch dispatch)
      (fun _ t => ∃ dispatch, t.code.content = s.code.content.withDispatch dispatch) := by
  refine (forM_onDispatch_content _ _).bind (fun _ t ht => ?_) (fun _ _ ht => ht)
  obtain ⟨dispatch, ht⟩ := ht
  cases stubIndex with
  | none => exact (Op.ensures_pure _).mpr ⟨dispatch, ht⟩
  | some index =>
    rw [Op.ensures_bind, ensures_current]
    split
    · exact (Op.ensures_violate _).mpr ⟨dispatch, ht⟩
    · exact (forM_onDispatch_content _ _).mono (fun _ u ⟨later, hu⟩ => ⟨later, by rw [hu, ht]; rfl⟩)
        (fun _ u ⟨later, hu⟩ => ⟨later, by rw [hu, ht]; rfl⟩)

end Running

end CompiledCode

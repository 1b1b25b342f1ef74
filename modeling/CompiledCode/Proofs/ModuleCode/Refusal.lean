import CompiledCode.Proofs.ModuleCode.Frugal

/-!
# Who is refused

An install is refused if it comes too late, and what is refused has not begun. No part of an install
that has begun fails in this way, as the failure of a stub compiler is told apart by what was being
done, so that an install is only ever refused by its very first step.
-/

namespace CompiledCode

/-- How an install fails that comes too late. -/
def Failure.refusal : Failure where
  cause := .optimizedAlreadyInstalled

namespace Op

variable {σ τ α β : Type}

/-- Whether an operation never fails like an install that comes too late. -/
def Proceeds (op : Op σ α) : Prop :=
  ∀ s, op.Ensures s (fun _ _ => True) fun fault _ => fault ≠ .failure .refusal

/-- Steps that come after a claim of room do not fail in this way. -/
theorem Frugal.proceeds {γ : Type} {view : σ → γ} {op : Op σ α} (h : op.Frugal view) : op.Proceeds :=
  fun _ => h.ensures (fun _ _ _ => trivial) fun fault _ _ hfollows hsame => by
    rw [hsame] at hfollows
    exact absurd hfollows.cause (by decide)

theorem proceeds_pure (value : α) : (pure value : Op σ α).Proceeds :=
  fun _ => (ensures_pure value).mpr trivial

theorem proceeds_modify (f : σ → σ) : (modify f : Op σ PUnit).Proceeds :=
  fun _ => (ensures_modify f).mpr trivial

/-- An attempt does not fail in this way unless it is for that cause. -/
theorem proceeds_ofAttempt {result : Except Cause α}
    (h : result ≠ .error .optimizedAlreadyInstalled) : (ofAttempt result : Op σ α).Proceeds := by
  cases result with
  | ok value => exact proceeds_pure value
  | error cause =>
    exact fun _ => (ensures_fail cause).mpr fun hsame =>
      h (congrArg Except.error (congrArg Failure.cause (Fault.failure.inj hsame)))

/-- One operation after another proceeds if both do. -/
theorem Proceeds.bind {op : Op σ β} {next : β → Op σ α} (h : op.Proceeds)
    (hnext : ∀ value, (next value).Proceeds) : (op >>= next).Proceeds :=
  fun s => (h s).bind (fun value t _ => hnext value t) (fun _ _ hfault => hfault)

/-- Whatever was being done, noting it tells a failure apart. -/
theorem proceeds_during (activity : Activity) (op : Op σ α) : (during activity op).Proceeds := by
  intro s
  refine (ensures_during activity op).mpr ((ensures_true op s).mono (fun _ _ h => h) fun fault _ _ => ?_)
  cases fault with
  | failure failure =>
    intro hsame
    have hactivities := congrArg Failure.activities (Fault.failure.inj hsame)
    exact absurd hactivities (List.cons_ne_nil _ _)
  | violation violation => nofun

/-- Undoing proceeds, too, so that a failure after it is the one before. -/
theorem Proceeds.onFailure {op : Op σ α} {undo : Op σ Unit} (h : op.Proceeds) (hundo : undo.Proceeds) :
    (onFailure op undo).Proceeds := by
  intro s
  refine (ensures_onFailure op undo).mpr ((h s).mono (fun _ _ hvalue => hvalue) fun fault t hfault => ?_)
  cases fault with
  | failure failure => exact (hundo t).mono (fun _ _ _ => hfault) (fun _ _ hfault => hfault)
  | violation violation => exact hfault

end Op

open Op

/-- Rounding up to pages fails for want of memory alone. -/
theorem Page.roundUp_ne (bytes : Nat) : roundUp bytes ≠ .error .optimizedAlreadyInstalled := by
  rw [roundUp]
  split <;> rintro ⟨⟩

/-- Without entries for a request, that is why stubs cannot be placed. -/
theorem CompiledStubs.entriesFor_ne (stubs : CompiledStubs) (requests : List StubRequest) :
    stubs.entriesFor requests ≠ .error .optimizedAlreadyInstalled := by
  induction requests with
  | nil => rintro ⟨⟩
  | cons request rest ih =>
    rw [entriesFor]
    split
    · rintro ⟨⟩
    · split
      · rintro ⟨⟩
      · rename_i cause hrest
        exact fun hsame => ih (hrest.trans (congrArg _ (Except.error.inj hsame)))

namespace Running

theorem proceeds_current : current.Proceeds := fun _ => ensures_current.mpr trivial

/-- Without code for a function, that is why its stub cannot be made anew. -/
theorem upgradeRequests_ne (tier1Kind : BlockKind) (tier2 : Block) (exports : List LazyExport) :
    upgradeRequests tier1Kind tier2 exports ≠ .error .optimizedAlreadyInstalled := by
  induction exports with
  | nil => rintro ⟨⟩
  | cons lazyExport rest ih =>
    rw [upgradeRequests]
    split
    · exact ih
    · split
      · rintro ⟨⟩
      · rw [callee]
        split
        · rename_i hcallee
          split at hcallee <;> cases hcallee
          rintro ⟨⟩
        · split
          · rename_i cause hrest
            exact fun hsame => ih (hrest.trans (congrArg _ (Except.error.inj hsame)))
          · rintro ⟨⟩

/-- Tables are changed at the end of placing a block, while its segment is created before. -/
theorem proceeds_place (compiled : CompiledBlock) (plan : PatchPlan) (symbols : SymbolTable)
    (shared : Option Block) : (onMemory (Block.place compiled plan symbols shared)).Proceeds := by
  have hplace : (Block.place compiled plan symbols shared).Proceeds := by
    refine (proceeds_during _ _).bind fun segment => (Block.frugal_make _ _ _ _ _).proceeds.bind fun _ => ?_
    split <;> exact proceeds_pure _
  exact fun s => (ensures_onMemory ..).mpr (hplace _)

theorem proceeds_stubSegment (needed : Nat) : (stubSegment needed).Proceeds := by
  have hget : (get : Op Running Running).Frugal room := frugal_get
  refine hget.proceeds.bind fun _ => ?_
  dsimp only
  split
  · exact proceeds_pure _
  · exact (proceeds_ofAttempt (Page.roundUp_ne _)).bind fun _ =>
      (frugal_onMemory (Memory.frugal_grow _)).proceeds.bind fun _ => (proceeds_during _ _).bind fun _ =>
        (proceeds_modify _).bind fun _ => proceeds_pure _

theorem proceeds_createStubs (compiler : StubCompiler) (requests : List StubRequest) (tier : Block) :
    (createStubs compiler requests tier).Proceeds := by
  have hclaim (segment : Segment) (needed : Nat) : (segment.claim needed).Frugal fun _ => () :=
    frugal_get.bind fun _ => (frugal_require _ _).bind fun _ => (frugal_set _).bind fun _ =>
      frugal_pure _
  have honMemory (segment : Segment) (needed : Nat) :
      (onMemory (segment.claim needed)).Frugal fun _ => () := (hclaim segment needed).focus fun _ _ _ => rfl
  exact (proceeds_during _ _).bind fun stubs => (proceeds_ofAttempt (stubs.entriesFor_ne _)).bind
    fun entries => (proceeds_ofAttempt (Page.roundUp_ne _)).bind fun needed =>
      (proceeds_stubSegment _).bind fun segment => (honMemory segment needed).proceeds.bind fun offset =>
        (frugal_putStubs stubs entries segment offset).proceeds

theorem proceeds_upgradeStubs (compiler : StubCompiler) (tier2 : Block) :
    (upgradeStubs compiler tier2).Proceeds := by
  refine proceeds_current.bind fun code => ?_
  dsimp only
  split
  · exact proceeds_pure _
  · exact (frugal_onMemory (Memory.frugal_grow _)).proceeds.bind fun _ =>
      (proceeds_ofAttempt (upgradeRequests_ne _ _ _)).bind fun _ =>
        (proceeds_createStubs _ _ _).bind fun _ => (proceeds_modify _).bind fun _ => proceeds_pure _

/-- Redirecting calls to a published tier does not fail any more. -/
theorem isViolation_of_redirect {s : Running} (tier2 : Block) (stubIndex : Option Nat) :
    (redirect tier2 stubIndex).Ensures s (fun _ _ => True) (fun fault _ => fault.isViolation = true) :=
  (frugal_redirect tier2 stubIndex).isViolation s

/-- An install that has begun is not refused. -/
theorem proceeds_installTier (compiler : StubCompiler) (plan : PatchPlan) (compiled : CompiledBlock) :
    (installTier compiler plan compiled).Proceeds := by
  have hbuild : (buildOptimized plan compiled).Proceeds :=
    proceeds_current.bind fun _ => (proceeds_place _ _ _ _).bind fun block =>
      (frugal_bindBlock _ block).proceeds
  exact hbuild.bind fun tier2 => (frugal_addBlock tier2).proceeds.bind fun _ =>
    ((proceeds_upgradeStubs compiler tier2).onFailure
      (frugal_of_storage (frugal_popBlock tier2)).proceeds).bind fun stubIndex =>
        (proceeds_modify _).bind fun _ => (frugal_redirect tier2 stubIndex).proceeds

/-- An install that does not begin is refused. -/
theorem beginInstall_refuses {s : Running} (kind : BlockKind) :
    (beginInstall kind).Ensures s (fun _ _ => True)
      (fun fault _ => fault.isViolation = false → fault = .failure .refusal) := by
  exact beginInstall_ensures_of (fun _ _ => nofun) (fun _ _ => rfl) fun _ _ _ => trivial

/-- An install is refused only if another one is under way or done. -/
theorem tier2_ne_of_refused {s t : Running} {compiler : StubCompiler} {plan : PatchPlan}
    {compiled : CompiledBlock}
    (h : installOptimized compiler plan compiled s = .error (.failure .refusal) t) :
    s.code.tier2 ≠ .absent := by
  have hinstall : (installOptimized compiler plan compiled).Ensures s (fun _ _ => True)
      (fun fault _ => fault = .failure .refusal → s.code.tier2 ≠ .absent) := by
    refine (beginInstall_ensures compiled.kind).bind (fun _ u _ => ?_) (fun fault u hu hfault => ?_)
    · have hproceeds : (onFailure (installTier compiler plan compiled)
          (change (·.withTier2 .absent))).Proceeds :=
        (proceeds_installTier compiler plan compiled).onFailure (proceeds_modify _)
      exact (hproceeds u).mono (fun _ _ h => h) (fun fault _ hne hfault => absurd hfault hne)
    · refine hu.2 ?_
      rw [hfault]
      rfl
  exact hinstall.of_error h rfl

end Running

end CompiledCode

import CompiledCode.Proofs.Process.Run

/-!
# Whatever is loaded, the process goes on

An image may hold anything. It is refused, or everything that its blocks are asserted to be when they
are placed, bound and registered has been checked before. So loading never ends by a violation, and
when it fails, however far it got, no block of the image is registered.
-/

namespace CompiledCode

/-- Whether an operation ends with a value, or else fails and leaves the registry with the entries
that it had. -/
def Engine.CarriesOn {α : Type} (engine : Engine) (op : Op Engine α) : Prop :=
  (∃ value after, op engine = .ok value after) ∨
    ∃ failure after, op engine = .error (.failure failure) after ∧
      (∀ side, after.registry.buffer side = engine.registry.buffer side) ∧
      after.registry.lookup = engine.registry.lookup

namespace Process

variable {since : Memory} {p : Process} {after : Engine}

/-- The registry has the same entries as long as the modules are the same. -/
theorem InStep.buffer_eq (h : InStep since p) (hafter : InStep since { p with engine := after })
    (side : Bool) : after.registry.buffer side = p.engine.registry.buffer side := by
  rw [RegionMap.buffer_eq_published h.registry.agree,
    RegionMap.buffer_eq_published hafter.registry.agree]
  exact hafter.registry.lists.unique h.registry.lists

/-- The registry answers alike as long as the modules are the same. -/
theorem InStep.lookup_eq (h : InStep since p) (hafter : InStep since { p with engine := after }) :
    after.registry.lookup = p.engine.registry.lookup := by
  funext pc
  exact Option.ext fun block =>
    (hafter.lookup_eq_some_iff pc block).trans (h.lookup_eq_some_iff pc block).symm

/-- An operation that never violates anything and leaves the modules in step if it fails carries on. -/
theorem InStep.carriesOn {α : Type} {op : Op Engine α} {onValue : α → Engine → Prop}
    (h : InStep since p)
    (hop : op.Ensures p.engine onValue fun fault after =>
      fault.isViolation = false ∧ InStep since { p with engine := after }) :
    p.engine.CarriesOn op := by
  cases hend : op p.engine with
  | ok value after => exact .inl ⟨value, after, hend⟩
  | error fault after =>
    obtain ⟨hcalm, hafter⟩ := hop.of_error hend
    cases fault with
    | violation violation => contradiction
    | failure failure => exact .inr ⟨failure, after, hend, h.buffer_eq hafter, h.lookup_eq hafter⟩

/-- At any time, whatever is refused by the system, code can be made of any image and loaded from any
bytes, or that fails, and then nothing more is registered than before. Memory for the tables is
presumed: more code ranges than coverage maps can index take a hundred gigabytes. -/
theorem loading_carries_on (h : Reachable p) (settings : Settings) (symbols : SymbolTable) :
    (∀ image : Image, image.Indexable →
      p.engine.CarriesOn (ModuleCode.ofImage settings symbols image)) ∧
    ∀ bytes : Bytes, (∀ image, Image.ofBytes bytes = .ok image → image.Indexable) →
      p.engine.CarriesOn (ModuleCode.load settings symbols bytes) := by
  have hstep := h.inStep
  constructor
  · intro image hindexable
    exact hstep.carriesOn ((ModuleCode.ofImage_inStep hstep settings symbols image).mono
      (fun _ _ hvalue => hvalue) fun _ _ hfault => ⟨hfault.2.1 hindexable, hfault.2.2⟩)
  · intro bytes hindexable
    exact hstep.carriesOn ((ModuleCode.load_inStep hstep settings symbols bytes).mono
      (fun _ _ hvalue => hvalue) fun _ _ hfault => ⟨hfault.2.1 hindexable, hfault.2.2⟩)

end Process

/-- Code memory that refuses to make the first code executable. -/
def Memory.stubborn : Memory where
  refusedProtects := [2]

/-- A saved module with one function is not refused, but cannot be loaded into stubborn memory. -/
theorem load_oneFunction_stubborn :
    Image.oneFunction.fault? {} = none ∧
      (∀ image, Image.ofBytes Image.oneFunction.toBytes = .ok image → image.Indexable) ∧
      ∃ failure after, ModuleCode.load {} .empty Image.oneFunction.toBytes
        { memory := .stubborn } = .error (.failure failure) after := by
  have hread : (match Image.ofBytes Image.oneFunction.toBytes with
      | .ok image => decide (image.sharedStubs.Indexable ∧ image.tier.Indexable)
      | .error _ => false) = true := by decide +kernel
  have hends : (ModuleCode.load {} .empty Image.oneFunction.toBytes).fails { memory := .stubborn }
      (fun _ _ => true) = true := by decide +kernel
  refine ⟨by decide +kernel, fun image himage => ?_, ?_⟩
  · rw [himage] at hread
    obtain ⟨hshared, htier⟩ := of_decide_eq_true hread
    exact ⟨hshared, htier⟩
  · obtain ⟨failure, after, hload, -⟩ := Op.exists_of_fails hends
    exact ⟨failure, after, hload⟩

namespace Process

/-- A module with one function that cannot be loaded leaves no block behind. -/
theorem loading_carries_on_when_refused :
    ∃ p : Process, Reachable p ∧ Image.oneFunction.fault? {} = none ∧
      ∃ failure after, ModuleCode.load {} .empty Image.oneFunction.toBytes p.engine =
        .error (.failure failure) after ∧ after.registry.lookup = p.engine.registry.lookup := by
  obtain ⟨hfault, hindexable, failure, after, hload⟩ := load_oneFunction_stubborn
  have hstart : Reachable { engine := { memory := .stubborn } } :=
    .start (Memory.sound_of_mapped_eq_nil (Nat.le_refl _) rfl) RegionMap.settled_empty
  refine ⟨_, hstart, hfault, failure, after, hload, ?_⟩
  obtain ⟨_, _, hok⟩ | ⟨_, _, herror, -, hlookup⟩ :=
    (loading_carries_on hstart {} .empty).2 _ hindexable
  · cases hload.symm.trans hok
  · cases hload.symm.trans herror
    exact hlookup

end Process

end CompiledCode

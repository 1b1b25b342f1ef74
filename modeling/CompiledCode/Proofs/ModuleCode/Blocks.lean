import CompiledCode.ModuleCode.Blocks
import CompiledCode.Proofs.Op

/-!
# What adding and taking back blocks leave behind

Operations on code memory, the registry and the rest of the engine leave the code of the
module alone, and those on its block map change nothing else of it. What is left of the code
of a module without its block map and the segments for stubs is its content; whatever is said
here about endings is said about the content, and covers failures and violations as well.
-/

namespace CompiledCode

namespace ModuleCode

/-- The code of a module without the index over its blocks and the segments for stubs. -/
def content (code : ModuleCode) : ModuleCode := { code with blockMap := {}, lazySegments := [] }

@[simp] theorem content_withBlock (code : ModuleCode) (block : Block) :
    (code.withBlock block).content = code.content.withBlock block := rfl

@[simp] theorem content_withoutLast (code : ModuleCode) :
    code.withoutLast.content = code.content.withoutLast := rfl

@[simp] theorem content_withCall (code : ModuleCode) (call : StubCall) :
    (code.withCall call).content = code.content.withCall call := rfl

@[simp] theorem content_withExports (code : ModuleCode) (exports : List LazyExport) :
    (code.withExports exports).content = code.content.withExports exports := rfl

@[simp] theorem content_withDispatch (code : ModuleCode) (dispatch : DispatchTables) :
    (code.withDispatch dispatch).content = code.content.withDispatch dispatch := rfl

@[simp] theorem content_withTier2 (code : ModuleCode) (tier2 : OptimizedTier) :
    (code.withTier2 tier2).content = code.content.withTier2 tier2 := rfl

/-- Code with the same content has the same blocks. -/
theorem blocks_eq_of_content {c d : ModuleCode} (h : c.content = d.content) :
    c.blocks = d.blocks := by
  change c.content.blocks = d.content.blocks
  rw [h]

end ModuleCode

namespace Running

variable {α : Type} {s : Running}

/-- An operation on code memory ensures what holds once the memory is put back. -/
theorem ensures_onMemory {onValue : α → Running → Prop} {onFault : Fault → Running → Prop}
    (op : Op Memory α) :
    (onMemory op).Ensures s onValue onFault ↔
      op.Ensures s.engine.memory
        (fun value memory => onValue value { s with engine := { s.engine with memory } })
        (fun fault memory => onFault fault { s with engine := { s.engine with memory } }) :=
  Op.ensures_focus _ _ op

/-- An operation on the registry ensures what holds once the registry is put back. -/
theorem ensures_onRegistry {onValue : α → Running → Prop} {onFault : Fault → Running → Prop}
    (op : Op (RegionMap Block) α) :
    (onRegistry op).Ensures s onValue onFault ↔
      op.Ensures s.engine.registry
        (fun value registry => onValue value { s with engine := { s.engine with registry } })
        (fun fault registry => onFault fault { s with engine := { s.engine with registry } }) :=
  Op.ensures_focus _ _ op

/-- An operation on the block map ensures what holds once the map is put back. -/
theorem ensures_onBlockMap {onValue : α → Running → Prop} {onFault : Fault → Running → Prop}
    (op : Op (RegionMap Block) α) :
    (onBlockMap op).Ensures s onValue onFault ↔
      op.Ensures s.code.blockMap
        (fun value blockMap => onValue value { s with code := { s.code with blockMap } })
        (fun fault blockMap => onFault fault { s with code := { s.code with blockMap } }) :=
  Op.ensures_focus _ _ op

/-- An operation on the engine ensures what holds once the engine is put back. -/
theorem ensures_onEngine {onValue : α → Running → Prop} {onFault : Fault → Running → Prop}
    (op : Op Engine α) :
    (onEngine op).Ensures s onValue onFault ↔
      op.Ensures s.engine (fun value engine => onValue value { s with engine })
        (fun fault engine => onFault fault { s with engine }) :=
  Op.ensures_focus _ _ op

/-- Whatever is done to code memory, the code of the module stays. -/
theorem onMemory_code (op : Op Memory α) :
    (onMemory op).Ensures s (fun _ t => t.code = s.code) (fun _ t => t.code = s.code) :=
  (Op.ensures_focus _ _ op).mpr ⟨fun _ => rfl, fun _ => rfl⟩

/-- What an operation ensures of code memory, it ensures of that of the engine. -/
theorem onMemory_ensures {op : Op Memory α} {onValue : α → Memory → Prop}
    {onFault : Fault → Memory → Prop} (h : op.Ensures s.engine.memory onValue onFault) :
    (onMemory op).Ensures s (fun value t => t.code = s.code ∧ onValue value t.engine.memory)
      (fun fault t => t.code = s.code ∧ onFault fault t.engine.memory) :=
  (Op.ensures_focus _ _ op).mpr (h.mono (fun _ _ hvalue => ⟨rfl, hvalue⟩)
    (fun _ _ hfault => ⟨rfl, hfault⟩))

/-- Whatever is done to the registry, the code of the module stays. -/
theorem onRegistry_code (op : Op (RegionMap Block) α) :
    (onRegistry op).Ensures s (fun _ t => t.code = s.code) (fun _ t => t.code = s.code) :=
  (Op.ensures_focus _ _ op).mpr ⟨fun _ => rfl, fun _ => rfl⟩

/-- What an operation ensures of an engine, it ensures of that of the module. -/
theorem onEngine_ensures {op : Op Engine α} {onValue : α → Engine → Prop}
    {onFault : Fault → Engine → Prop} (h : op.Ensures s.engine onValue onFault) :
    (onEngine op).Ensures s (fun value t => t.code = s.code ∧ onValue value t.engine)
      (fun fault t => t.code = s.code ∧ onFault fault t.engine) :=
  (Op.ensures_focus _ _ op).mpr (h.mono (fun _ _ hvalue => ⟨rfl, hvalue⟩)
    (fun _ _ hfault => ⟨rfl, hfault⟩))

/-- Whatever is done to the dispatch tables, the rest of the content stays. -/
theorem onDispatch_content {op : Op DispatchTables α} {onValue : α → DispatchTables → Prop}
    {onFault : Fault → DispatchTables → Prop} (h : op.Ensures s.code.dispatch onValue onFault) :
    (onDispatch op).Ensures s
      (fun value t => onValue value t.code.dispatch ∧
        t.code.content = s.code.content.withDispatch t.code.dispatch)
      (fun fault t => onFault fault t.code.dispatch ∧
        t.code.content = s.code.content.withDispatch t.code.dispatch) :=
  (Op.ensures_focus _ _ op).mpr (h.mono (fun _ _ hvalue => ⟨hvalue, rfl⟩)
    (fun _ _ hfault => ⟨hfault, rfl⟩))

/-- Whatever is done to the block map, the content of the module stays. -/
theorem onBlockMap_content (op : Op (RegionMap Block) α) :
    (onBlockMap op).Ensures s (fun _ t => t.code.content = s.code.content)
      (fun _ t => t.code.content = s.code.content) :=
  (Op.ensures_focus _ _ op).mpr ⟨fun _ => rfl, fun _ => rfl⟩

/-- Taking a block out of the block map changes nothing else. -/
theorem unmapBlock_content (block : Block) :
    (unmapBlock block).Ensures s (fun _ t => t.code.content = s.code.content)
      (fun _ t => t.code.content = s.code.content) :=
  (onBlockMap_content _).bind (fun _ _ h => (Op.ensures_pure _).mpr h) (fun _ _ h => h)

/-- Taking a block out of the registry leaves the code of the module alone. -/
theorem unregisterBlock_code (block : Block) :
    (unregisterBlock block).Ensures s (fun _ t => t.code = s.code) (fun _ t => t.code = s.code) :=
  (onRegistry_code _).bind (fun _ _ h => (Op.ensures_pure _).mpr h) (fun _ _ h => h)

@[simp] theorem ensures_current {onValue : ModuleCode → Running → Prop}
    {onFault : Fault → Running → Prop} :
    current.Ensures s onValue onFault ↔ onValue s.code s := Op.ensures_iff_of_ok rfl

@[simp] theorem ensures_change {onValue : Unit → Running → Prop} {onFault : Fault → Running → Prop}
    (f : ModuleCode → ModuleCode) :
    (change f).Ensures s onValue onFault ↔ onValue () { s with code := f s.code } :=
  Op.ensures_iff_of_ok rfl

/-- Registering a block changes nothing but indexes. -/
theorem registerBlock_content (block : Block) :
    (registerBlock block).Ensures s (fun _ t => t.code.content = s.code.content)
      (fun _ t => t.code.content = s.code.content) := by
  rw [registerBlock]
  split
  · rw [Op.ensures_pure]
  refine (onMemory_code _).bind (fun room t ht => ?_) (fun _ t ht => by rw [ht])
  rw [← ht]
  refine (onBlockMap_content _).bind (fun _ u hu => ?_) (fun _ _ hu => hu)
  refine (onMemory_code _).bind (fun room v hv => ?_) (fun _ v hv => by rw [hv, hu])
  rw [Op.ensures_onFailure, Op.ensures_during]
  refine (onRegistry_code _).mono (fun _ w hw => by rw [hw, hv, hu]) (fun fault w hw => ?_)
  cases fault with
  | violation violation => exact by rw [hw, hv, hu]
  | failure failure =>
    exact (unmapBlock_content block).mono (fun _ x hx => by rw [hx, hw, hv, hu])
      (fun _ x hx => by rw [hx, hw, hv, hu])

/-- A block that is added comes last, and nothing else changes; otherwise nothing changes. -/
theorem addBlock_content (block : Block) :
    (addBlock block).Ensures s
      (fun index t => index = s.code.blocks.length ∧
        t.code.content = s.code.content.withBlock block)
      (fun _ t => t.code.content = s.code.content) := by
  refine (onMemory_code _).bind (fun _ t ht => ?_) (fun _ t ht => by rw [ht])
  rw [← ht]
  refine (registerBlock_content block).bind (fun _ u hu => ?_) (fun _ _ hu => hu)
  have hblocks : u.code.blocks = t.code.blocks := ModuleCode.blocks_eq_of_content hu
  rw [appendBlock, Op.ensures_bind, ensures_current, Op.ensures_bind, ensures_change,
    Op.ensures_pure]
  refine ⟨congrArg List.length hblocks, ?_⟩
  rw [ModuleCode.content_withBlock, hu]

/-- Withdrawing a block changes nothing but indexes. -/
theorem withdrawBlock_content (block : Block) :
    (withdrawBlock block).Ensures s (fun _ t => t.code.content = s.code.content)
      (fun _ t => t.code.content = s.code.content) := by
  rw [withdrawBlock]
  split
  · rw [Op.ensures_pure]
  · refine (unmapBlock_content block).bind (fun _ t ht => ?_) (fun _ _ ht => ht)
    exact (unregisterBlock_code block).mono (fun _ u hu => by rw [hu, ht])
      (fun _ u hu => by rw [hu, ht])

/-- Taking a block back takes the last one out of the list, however it ends. -/
theorem popBlock_content (block : Block) :
    (popBlock block).Ensures s
      (fun _ t => t.code.content = s.code.content.withoutLast)
      (fun _ t => t.code.content = s.code.content.withoutLast) := by
  rw [popBlock, Op.ensures_bind, ensures_current, Op.ensures_bind, ensures_change, Op.ensures_bind,
    Op.ensures_require]
  split
  · exact withdrawBlock_content block
  · rfl

end Running

end CompiledCode

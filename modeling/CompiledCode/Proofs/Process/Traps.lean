import CompiledCode.Proofs.Process.Loaded
import CompiledCode.Proofs.Sites

/-!
# Where traps are led to

Code that is compiled leaves open where its traps are handled. That is settled when the code is patched,
by the shared stubs of its module: they name the place of their trap exit, which takes precedence over
any runtime symbol. So all code that a module ever has leads its traps to one address.

Shared stubs without code name a place just as well, although there is nothing at it. A runtime symbol
for traps is passed over even then.
-/

namespace CompiledCode

/-- No bytes of a number are lost that are written. -/
theorem littleEndian_mod (width n : Nat) :
    littleEndian width (n % 256 ^ width) = littleEndian width n := by
  induction width generalizing n with
  | zero => rfl
  | succ width ih =>
    rw [littleEndian, littleEndian, pow_succ', Nat.mod_mul_right_mod, Nat.mod_mul_right_div_self, ih]

/-- An address is written like the number that it is made of. -/
theorem littleEndian_ofNat (n : Nat) : littleEndian 8 (UInt64.ofNat n).toNat = littleEndian 8 n :=
  littleEndian_mod 8 n

/-- A segment for no code at all is given no memory. -/
theorem Segment.place_nil (plan : PatchPlan) (symbols : SymbolTable) (trapHandler : Option UInt64)
    (memory : Memory) : (place [] plan symbols trapHandler).Ensures memory
      (fun segment _ => segment.base = emptyBase) (fun _ _ => True) := by
  have hzero : Page.roundUp 0 = .ok 0 := rfl
  have hobtain : (obtain 0).Ensures memory (fun segment _ => segment.base = emptyBase)
      (fun _ _ => True) := by
    refine obtain_ensures_of (fun _ _ => trivial) (fun _ => rfl) fun capacity hcapacity hsome => ?_
    obtain rfl := Except.ok.inj (hzero.symm.trans hcapacity)
    exact absurd hsome (Nat.lt_irrefl 0)
  refine place_ensures_of (fun _ _ => trivial) (fun capacity hcapacity => ?_)
    fun capacity segment after _ hbase => (Op.ensures_true _ _).mono (fun _ _ _ => hbase) fun _ _ h => h
  obtain rfl := Except.ok.inj (hzero.symm.trans hcapacity)
  exact hobtain

/-- Shared stubs that are placed name the place of their trap exit, whether or not they hold code. -/
theorem Block.place_trapExit {compiled : CompiledBlock} (hkind : compiled.kind = .sharedStubs)
    (plan : PatchPlan) (symbols : SymbolTable) (shared : Option Block) (memory : Memory) :
    (place compiled plan symbols shared).Ensures memory
      (fun block _ => block.trapCode = some (block.base + plan.trapOffset) ∧
        (compiled.code = [] → block.base = Segment.emptyBase))
      (fun _ _ => True) := by
  have hsegment (trapHandler : Option UInt64) :
      (Segment.place compiled.code plan symbols trapHandler).Ensures memory
        (fun segment _ => compiled.code = [] → segment.base = Segment.emptyBase) (fun _ _ => True) := by
    by_cases hnil : compiled.code = []
    · rw [hnil]
      exact (Segment.place_nil ..).mono (fun _ _ h _ => h) (fun _ _ h => h)
    · exact (Op.ensures_true _ _).mono (fun _ _ _ h => absurd h hnil) (fun _ _ h => h)
  refine (hsegment _).during.bind (fun segment m hm => ?_) (fun _ _ _ => trivial)
  refine (make_ensures ..).bind (fun block m' hblock => ?_) (fun _ _ _ => trivial)
  obtain ⟨rfl, -⟩ := assemble_eq_ok hblock.1
  rw [if_pos hkind, Op.ensures_pure]
  exact ⟨rfl, hm⟩

namespace Process

variable {image : Image} {p q : Process} {code code' : ModuleCode} {codes : List ModuleCode}
  {block : Block} {piece : Piece}

/-- Where a module leads traps to is up to the shared stubs that it was loaded with. -/
theorem LoadedFrom.trapCode_eq (h : LoadedFrom image p code) :
    code.trapCode = some (code.sharedStubs.base + image.sharedPlan.trapOffset) ∧
      code.sharedStubs.length = image.sharedStubs.code.length ∧
      (image.sharedStubs.code = [] → code.sharedStubs.base = Segment.emptyBase) := by
  obtain ⟨settings, symbols, bytes, q, start, after, hreach, hread, hend, hbecomes, -⟩ := h.exists_load
  have hkind := (Image.checked_of_fault? (ModuleCode.fault?_of_load hread hend)).sharedKind
  have hlength := (ModuleCode.load_blocks hreach.inStep hread hend).2.1.length
  obtain ⟨other, sharedStubs, tier1, middle, last, hother, hshared, -, hcreate⟩ :=
    ModuleCode.load_eq_ok hend
  obtain rfl := Except.ok.inj (hread.symm.trans hother)
  have hplace : (Engine.onMemory (Block.place image.sharedStubs image.sharedPlan symbols none)).Ensures
      q.engine (fun block _ => block.trapCode = some (block.base + image.sharedPlan.trapOffset) ∧
        (image.sharedStubs.code = [] → block.base = Segment.emptyBase)) (fun _ _ => True) :=
    (Op.ensures_focus _ _ _).mpr (Block.place_trapExit hkind ..)
  have hplaced := hplace.of_ok hshared
  obtain ⟨-, ⟨owner, serial, hbound⟩, -⟩ := ((ModuleCode.create_content ..).of_ok hcreate).blocks
  rw [ModuleCode.trapCode, hbecomes.sharedStubs]
  refine ⟨?_, hlength, ?_⟩
  · rw [hbound]
    exact hplaced.1
  · rw [hbound]
    exact hplaced.2

/-- The trap exit is in the shared stubs if there is any code in them, and not otherwise. -/
theorem LoadedFrom.contains_trapCode (h : LoadedFrom image p code) :
    code.sharedStubs.contains (code.sharedStubs.base + image.sharedPlan.trapOffset) = true ↔
      image.sharedStubs.code ≠ [] := by
  obtain ⟨settings, symbols, bytes, q, start, after, -, hread, hend, -⟩ := h.exists_load
  have hfault := ModuleCode.fault?_of_load hread hend
  simp only [Image.fault?, Option.orElse_eq_none, ite_eq_right_iff, reduceCtorEq, imp_false,
    Bool.not_eq_true] at hfault
  obtain ⟨-, -, -, -, hexit⟩ := hfault
  simp only [Block.contains, h.trapCode_eq.2.1, Bool.and_eq_true, decide_eq_true_eq,
    Nat.add_lt_add_iff_left]
  constructor
  · rintro ⟨-, hlt⟩ hnil
    rw [hnil] at hlt
    exact Nat.not_lt_zero _ hlt
  · intro hcode
    rw [Image.trapExitOutside, List.isEmpty_eq_false_iff.mpr hcode, Bool.not_false, Bool.true_and,
      decide_eq_false_iff_not, not_le] at hexit
    exact ⟨Nat.le_add_right _ _, hexit⟩

/-- A block that is made for a module in a step leads its traps where the module does. -/
theorem Makes.trapHandler (h : Makes p q block piece) (hp : p.codes = code :: codes)
    (hq : q.codes = code' :: codes) (hin : block ∈ code'.blocks) (hnew : block ∉ code.blocks) :
    piece.trapHandler = code.trapCode.map UInt64.ofNat := by
  have hlonger : ∀ {other : ModuleCode}, codes ≠ other :: codes :=
    fun h => absurd (congrArg List.length h) (by simp)
  cases h with
  | place =>
    obtain ⟨rfl, -⟩ := List.cons.inj (hp.symm.trans hq)
    contradiction
  | loadStubs | loadTier =>
    dsimp only at hp hq
    exact absurd ((List.cons.inj hq).2.symm.trans hp) hlonger
  | installTier | installStubs | entry =>
    obtain ⟨rfl, -⟩ := List.cons.inj hp
    rfl

/-- Whatever a block of a module was made of leads its traps where the module does. -/
theorem MadeFor.trapHandler (h : MadeFor image p code block piece) :
    piece.trapHandler = code.trapCode.map UInt64.ofNat := by
  induction h with
  | load => rfl
  | makes _ hstep hp hq _ hin hnew hmakes _ =>
    rw [hmakes.trapHandler hp hq hin hnew, ModuleCode.trapCode, ModuleCode.trapCode,
      (hstep.becomes hp hq).sharedStubs]
  | own _ hstep hp hq _ ih =>
    rw [ih, ModuleCode.trapCode, ModuleCode.trapCode, (hstep.becomes hp hq).sharedStubs]
  | other _ _ _ ih => exact ih

/-- The first tier of a module that was loaded is made of the tier of the image. -/
theorem LoadedFrom.madeFor_tier1 (h : LoadedFrom image p code) :
    ∃ symbols, MadeFor image p code code.tier1
      (.ofBlock image.tier image.tierPlan symbols (some code.sharedStubs)) := by
  induction h with
  | load hreach hread hend => exact ⟨_, .load hreach hread hend⟩
  | own _ hstep hp hq hslots ih =>
    obtain ⟨symbols, hmade⟩ := ih
    have hbecomes := hstep.becomes hp hq
    exact ⟨symbols, hbecomes.sharedStubs ▸ hbecomes.tier1 ▸ hmade.own hstep hp hq hslots⟩
  | other _ hstep hin ih =>
    obtain ⟨symbols, hmade⟩ := ih
    exact ⟨symbols, hmade.other hstep hin⟩

/-- A module that was loaded leads all its traps to one address, which is at the trap exit of the image
in its shared stubs. If these hold code then the address is in it; otherwise it is that far from where
segments without memory are said to start. The first tier, and every block that was made for the module
later on, holds that address at each of its sites for traps, provided that its sites lie apart. -/
theorem traps_lead_to_shared_stubs (h : LoadedFrom image p code) :
    ∃ address, code.trapCode = some address ∧
      address = code.sharedStubs.base + image.sharedPlan.trapOffset ∧
      (code.sharedStubs.contains address = true ↔ image.sharedStubs.code ≠ []) ∧
      (image.sharedStubs.code = [] → code.sharedStubs.base = Segment.emptyBase) ∧
      (∃ symbols, MadeFor image p code code.tier1
        (.ofBlock image.tier image.tierPlan symbols (some code.sharedStubs))) ∧
      (∀ block ∈ code.blocks, block = code.sharedStubs ∨ ∃ piece, MadeFor image p code block piece) ∧
      ∀ block piece, MadeFor image p code block piece → piece.plan.SitesApart →
        ∀ site ∈ piece.plan.symbolic .handleTrap,
          p.engine.memory.read (block.base + site) 8 = littleEndian 8 address := by
  obtain ⟨htrap, -, hnil⟩ := h.trapCode_eq
  refine ⟨_, htrap, rfl, h.contains_trapCode, hnil, h.madeFor_tier1, h.exists_madeFor, ?_⟩
  intro block piece hmade hapart site hsite
  obtain ⟨address, haddress, hread⟩ := hmade.shows.2.read_site hapart hsite
  -- The trap exit takes precedence over the table of symbols.
  rw [hmade.trapHandler, htrap] at haddress
  obtain rfl := Option.some.inj haddress
  rw [hread, littleEndian_ofNat]

end Process

/-- Shared stubs that hold a trap exit and one byte before it. -/
def CompiledBlock.trapExit : CompiledBlock := { CompiledBlock.noStubs with code := [0xc3, 0xcc] }

/-- Code that starts with the address where its traps are handled. -/
def PatchPlan.trapping : PatchPlan := ({} : PatchPlan).addSymbolic .handleTrap 0

/-- A saved module with one function that traps, and without anything to handle that. -/
def Image.unhandled : Image := { Image.oneFunction with tierPlan := .trapping }

/-- The same module with a trap exit. -/
def Image.handled : Image :=
  { Image.unhandled with sharedStubs := .trapExit, sharedPlan := { trapOffset := 1 } }

/-- A table that defines the runtime symbol for traps. -/
def SymbolTable.trapping : SymbolTable := SymbolTable.empty.define .handleTrap 0x7000

/-- A module with a trap exit can be loaded. -/
theorem load_handled :
    ∃ code engine, ModuleCode.load {} .trapping Image.handled.toBytes {} = .ok code engine ∧
      code.sharedStubs.base = 0x200000000000 := by
  have hends : (ModuleCode.load {} .trapping Image.handled.toBytes).succeeds {}
      (fun code _ => decide (code.sharedStubs.base = 0x200000000000)) = true := by decide +kernel
  obtain ⟨code, engine, hload, htest⟩ := Op.exists_of_succeeds hends
  exact ⟨code, engine, hload, of_decide_eq_true htest⟩

namespace Process

/-- The function of a module with a trap exit leads its traps there once it is loaded. -/
theorem traps_lead_to_shared_stubs_once_loaded :
    ∃ (p : Process) (code : ModuleCode), LoadedFrom .handled p code ∧
      code.trapCode = some 0x200000000001 ∧ code.sharedStubs.contains 0x200000000001 = true ∧
      p.engine.memory.read code.tier1.base 8 = [1, 0, 0, 0, 0, 0x20, 0, 0] := by
  obtain ⟨code, engine, hload, hbase⟩ := load_handled
  have hloaded : LoadedFrom .handled { engine, codes := [code] } code :=
    reachable_start.loadedFrom hload
  obtain ⟨address, htrap, haddress, hcontains, -, ⟨symbols, hmade⟩, -, hsites⟩ :=
    traps_lead_to_shared_stubs hloaded
  rw [hbase] at haddress
  subst haddress
  have hapart : PatchPlan.trapping.SitesApart := by decide
  have hsite : 0 ∈ PatchPlan.trapping.symbolic .handleTrap := by decide
  exact ⟨_, code, hloaded, htrap, hcontains.mpr (by decide), hsites _ _ hmade hapart 0 hsite⟩

/-- A module without any code to handle traps in its shared stubs leads them to an address all the
same, at which there is no code, although there is a runtime symbol for them. -/
theorem unhandled_traps_lead_nowhere :
    SymbolTable.trapping .handleTrap = some 0x7000 ∧
    ∃ code engine, ModuleCode.load {} .trapping Image.unhandled.toBytes {} = .ok code engine ∧
      Image.unhandled.tierPlan.symbolic .handleTrap = [0] ∧ Image.unhandled.tierPlan.SitesApart ∧
      code.trapCode = some 1 ∧ code.sharedStubs.contains 1 = false ∧ engine.isCode 1 = false ∧
      engine.memory.read code.tier1.base 8 = littleEndian 8 1 ∧
      engine.memory.read code.tier1.base 8 ≠ littleEndian 8 0x7000 := by
  have hends : (ModuleCode.load {} .trapping Image.unhandled.toBytes).succeeds {}
      (fun code engine => decide (code.trapCode = some 1 ∧ code.sharedStubs.contains 1 = false ∧
        engine.isCode 1 = false ∧ engine.memory.read code.tier1.base 8 = littleEndian 8 1 ∧
        engine.memory.read code.tier1.base 8 ≠ littleEndian 8 0x7000)) = true := by decide +kernel
  obtain ⟨code, engine, hload, htest⟩ := Op.exists_of_succeeds hends
  exact ⟨rfl, code, engine, hload, rfl, by decide, of_decide_eq_true htest⟩

end Process

end CompiledCode

import CompiledCode.Proofs.Process.Sealed

/-!
# The life of a module that was loaded

Once it is loaded from an image, a module is asked for entries and may be given an optimized tier, while
anything happens elsewhere in the process. It keeps the shared stubs and the first tier of the image.
Every other block that it has was made for it in some step, from a piece of code that the block goes on
holding.

The dispatch tables may be filled from outside, but whatever fills them leaves them the slots that they
have.
-/

namespace CompiledCode

/-- An image that was loaded suits the host. -/
theorem ModuleCode.fault?_of_load {settings : Settings} {symbols : SymbolTable} {bytes : Bytes}
    {engine after : Engine} {image : Image} {code : ModuleCode} (hread : Image.ofBytes bytes = .ok image)
    (hend : load settings symbols bytes engine = .ok code after) : image.fault? settings = none := by
  rw [load, hread] at hend
  dsimp only at hend
  rw [ofImage] at hend
  cases hfault : image.fault? settings with
  | none => rfl
  | some fault =>
    rw [hfault] at hend
    contradiction

namespace Process

variable {image : Image} {p q : Process} {code code' : ModuleCode} {codes : List ModuleCode}
  {block : Block} {piece : Piece}

/-- Whether the code of a module in a process was loaded from an image. -/
inductive LoadedFrom (image : Image) : Process → ModuleCode → Prop where
  /-- The code is loaded. -/
  | load {engine after : Engine} {placed : List Block} {codes : List ModuleCode}
      {settings : Settings} {symbols : SymbolTable} {bytes : Bytes} {code : ModuleCode}
      (hreach : Reachable { engine, placed, codes }) (hread : Image.ofBytes bytes = .ok image)
      (hend : ModuleCode.load settings symbols bytes engine = .ok code after) :
    LoadedFrom image { engine := after, placed, codes := code :: codes } code
  /-- The module is asked for something, or its dispatch tables or labels are filled. -/
  | own {p q : Process} {code code' : ModuleCode} {codes : List ModuleCode}
      (hloaded : LoadedFrom image p code) (hstep : Step p q) (hp : p.codes = code :: codes)
      (hq : q.codes = code' :: codes) (hslots : code.dispatch.SameSlots code'.dispatch) :
    LoadedFrom image q code'
  /-- Something else happens in the process. -/
  | other {p q : Process} {code : ModuleCode} (hloaded : LoadedFrom image p code) (hstep : Step p q)
      (hin : code ∈ q.codes) : LoadedFrom image q code

/-- A module that is loaded from the bytes of an image is loaded from that image. -/
theorem Reachable.loadedFrom (h : Reachable p) {settings : Settings} {symbols : SymbolTable}
    {after : Engine} (hend : ModuleCode.load settings symbols image.toBytes p.engine = .ok code after) :
    LoadedFrom image { p with engine := after, codes := code :: p.codes } code := by
  obtain ⟨other, _, _, _, _, hread, -⟩ := ModuleCode.load_eq_ok hend
  obtain rfl := Image.eq_of_ofBytes_toBytes hread
  exact .load h hread hend

/-- A module that was loaded is there. -/
theorem LoadedFrom.reachable (h : LoadedFrom image p code) : Reachable p ∧ code ∈ p.codes := by
  induction h with
  | load hreach _ hend => exact ⟨hreach.step (.load hend), List.mem_cons_self⟩
  | own _ hstep _ hq _ ih => exact ⟨ih.1.step hstep, hq ▸ List.mem_cons_self⟩
  | other _ hstep hin ih => exact ⟨ih.1.step hstep, hin⟩

/-- A module that was loaded has gone on from what was loaded. -/
theorem LoadedFrom.exists_load (h : LoadedFrom image p code) :
    ∃ settings symbols bytes q start after, Reachable q ∧ Image.ofBytes bytes = .ok image ∧
      ModuleCode.load settings symbols bytes q.engine = .ok start after ∧ start.Becomes code ∧
      start.dispatch.SameSlots code.dispatch := by
  induction h with
  | load hreach hread hend => exact ⟨_, _, _, _, _, _, hreach, hread, hend, .refl _, rfl, rfl, rfl⟩
  | own _ hstep hp hq hslots ih =>
    obtain ⟨settings, symbols, bytes, q, start, after, hreach, hread, hend, hbecomes, hsame⟩ := ih
    exact ⟨settings, symbols, bytes, q, start, after, hreach, hread, hend,
      hbecomes.trans (hstep.becomes hp hq), hsame.trans hslots⟩
  | other _ _ _ ih => exact ih

/-- A block that a module has after a step was there before, or has been made in the step. -/
theorem Step.own_blocks (hstep : Step p q) (h : InStep p.engine.memory p) (hp : p.codes = code :: codes)
    (hq : q.codes = code' :: codes) (hin : block ∈ code'.blocks) :
    block ∈ code.blocks ∨ ∃ piece, Makes p q block piece ∧ q.engine.memory.Shows block piece := by
  cases hstep.affects hp hq with
  | nothing | dispatch | label => exact .inl hin
  | entry hend hcalm => exact makes_of_entry h hend hcalm hin
  | install hend hcalm => exact makes_of_install h hend hcalm hin

/-- The code of a module that was loaded from an image, a block of it besides the shared stubs, and the
piece of code that the block was made of. -/
inductive MadeFor (image : Image) : Process → ModuleCode → Block → Piece → Prop where
  /-- The first tier is loaded. -/
  | load {engine after : Engine} {placed : List Block} {codes : List ModuleCode}
      {settings : Settings} {symbols : SymbolTable} {bytes : Bytes} {code : ModuleCode}
      (hreach : Reachable { engine, placed, codes }) (hread : Image.ofBytes bytes = .ok image)
      (hend : ModuleCode.load settings symbols bytes engine = .ok code after) :
    MadeFor image { engine := after, placed, codes := code :: codes } code code.tier1
      (.ofBlock image.tier image.tierPlan symbols (some code.sharedStubs))
  /-- A block is made in a step, and holds the piece of code right after it. -/
  | makes {p q : Process} {code code' : ModuleCode} {codes : List ModuleCode} {block : Block}
      {piece : Piece} (hloaded : LoadedFrom image p code) (hstep : Step p q)
      (hp : p.codes = code :: codes) (hq : q.codes = code' :: codes)
      (hslots : code.dispatch.SameSlots code'.dispatch) (hin : block ∈ code'.blocks)
      (hnew : block ∉ code.blocks) (hmakes : Makes p q block piece)
      (hshows : q.engine.memory.Shows block piece) : MadeFor image q code' block piece
  /-- The module goes on. -/
  | own {p q : Process} {code code' : ModuleCode} {codes : List ModuleCode} {block : Block}
      {piece : Piece} (hmade : MadeFor image p code block piece) (hstep : Step p q)
      (hp : p.codes = code :: codes) (hq : q.codes = code' :: codes)
      (hslots : code.dispatch.SameSlots code'.dispatch) : MadeFor image q code' block piece
  /-- Something else happens in the process. -/
  | other {p q : Process} {code : ModuleCode} {block : Block} {piece : Piece}
      (hmade : MadeFor image p code block piece) (hstep : Step p q) (hin : code ∈ q.codes) :
    MadeFor image q code block piece

/-- A module that a block was made for was loaded from the image. -/
theorem MadeFor.loadedFrom (h : MadeFor image p code block piece) : LoadedFrom image p code := by
  induction h with
  | load hreach hread hend => exact .load hreach hread hend
  | makes hloaded hstep hp hq hslots => exact hloaded.own hstep hp hq hslots
  | own _ hstep hp hq hslots ih => exact ih.own hstep hp hq hslots
  | other _ hstep hin ih => exact ih.other hstep hin

/-- A block belongs to the module that it was made for, and holds what it was made of. -/
theorem MadeFor.shows (h : MadeFor image p code block piece) :
    block ∈ code.blocks ∧ p.engine.memory.Shows block piece := by
  induction h with
  | load hreach hread hend =>
    obtain ⟨hblocks, -, hshows⟩ := ModuleCode.load_blocks hreach.inStep hread hend
    exact ⟨hblocks ▸ List.mem_cons_of_mem _ List.mem_cons_self, hshows⟩
  | makes _ _ _ _ _ hin _ _ hshows => exact ⟨hin, hshows⟩
  | own hmade hstep hp hq _ ih =>
    obtain ⟨hreach, hcode⟩ := hmade.loadedFrom.reachable
    exact ⟨(hstep.becomes hp hq).blocks _ ih.1,
      hstep.shows hreach.inStep (mem_held hcode ih.1) ih.2⟩
  | other hmade hstep _ ih =>
    obtain ⟨hreach, hcode⟩ := hmade.loadedFrom.reachable
    exact ⟨ih.1, hstep.shows hreach.inStep (mem_held hcode ih.1) ih.2⟩

/-- Every block of a module that was loaded, besides the shared stubs, was made for it. -/
theorem LoadedFrom.exists_madeFor (h : LoadedFrom image p code) :
    ∀ block ∈ code.blocks, block = code.sharedStubs ∨ ∃ piece, MadeFor image p code block piece := by
  induction h with
  | load hreach hread hend =>
    intro block hin
    obtain ⟨hblocks, -⟩ := ModuleCode.load_blocks hreach.inStep hread hend
    rw [hblocks, List.mem_pair] at hin
    obtain rfl | rfl := hin
    · exact .inl rfl
    · exact .inr ⟨_, .load hreach hread hend⟩
  | @own p q before after codes hloaded hstep hp hq hslots ih =>
    intro block hin
    by_cases hold : block ∈ before.blocks
    · obtain hshared | ⟨piece, hmade⟩ := ih block hold
      · exact .inl (hshared.trans (hstep.becomes hp hq).sharedStubs.symm)
      · exact .inr ⟨piece, hmade.own hstep hp hq hslots⟩
    · obtain hbefore | ⟨piece, hmakes, hshows⟩ :=
        hstep.own_blocks hloaded.reachable.1.inStep hp hq hin
      · exact absurd hbefore hold
      · exact .inr ⟨piece, .makes hloaded hstep hp hq hslots hin hold hmakes hshows⟩
  | other _ hstep hin ih =>
    intro block hblock
    exact (ih block hblock).imp_right fun ⟨piece, hmade⟩ => ⟨piece, hmade.other hstep hin⟩

end Process

end CompiledCode

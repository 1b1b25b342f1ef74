import CompiledCode.Proofs.Process.Tiers

/-!
# Blocks with the same tables at two addresses

Lookups take a program counter to an offset of the block that contains it, and go on from there by the
tables of that block. So the same offset of two blocks with the same tables stands for the same,
whatever else there is in their modules.
-/

namespace CompiledCode

/-- Whether a block is another one at some other place, by all that describes its code. -/
structure Block.Mirrors (twin block : Block) : Prop where
  kind : twin.kind = block.kind
  length : twin.length = block.length
  tables : twin.tables = block.tables
  coverage : twin.coverage = block.coverage

namespace Block

variable {block twin : Block} {pc offset : Nat}

/-- A block contains the addresses of its code. -/
theorem contains_base_add (h : offset < block.length) : block.contains (block.base + offset) = true := by
  simp [contains, h]

/-- A block with a segment of its own turns addresses of its code into the offsets that they are at. -/
theorem offsetOf?_base_add (hstart : block.start = 0) (h : offset < block.length) :
    block.offsetOf? (block.base + offset) = if offset < UInt32.size then some offset else none := by
  have hoffset : block.base + offset - block.segment.base = offset := by
    rw [base, hstart]
    omega
  simp only [offsetOf?, contains_base_add h, hoffset, true_and]

/-- Addresses elsewhere are in no code range of a block. -/
theorem range?_of_not_contains (h : block.contains pc = false) : block.range? pc = none := by
  rw [range?, offsetOf?, if_neg (by simp [h])]
  rfl

end Block

/-- A search that one input alone can answer is answered by it. -/
theorem findSome?_eq_of_forall_ne {α β : Type} [DecidableEq α] {f : α → Option β} {inputs : List α}
    {own : α} (h : ∀ input ∈ inputs, input ≠ own → f input = none) :
    inputs.findSome? f = if own ∈ inputs then f own else none := by
  induction inputs with
  | nil => rfl
  | cons input rest ih =>
    obtain ⟨hinput, hrest⟩ := List.forall_mem_cons.mp h
    rw [List.findSome?_cons, ih hrest]
    by_cases hsame : input = own
    · subst hsame
      cases f input <;> simp
    · simp [hinput hsame, Ne.symm hsame]

namespace ModuleCode

/-- Whether a program counter in a block stands for the same as the one at that offset of a block in
another module. -/
structure AnswersAlike (code : ModuleCode) (block : Block) (other : ModuleCode) (twin : Block)
    (offset : Nat) : Prop where
  blockAt : code.blockAt? (block.base + offset) = some block ∧
    other.blockAt? (twin.base + offset) = some twin
  callSite : other.callSiteAt? (twin.base + offset) = code.callSiteAt? (block.base + offset)
  stackMap : other.stackMapAt? (twin.base + offset) = code.stackMapAt? (block.base + offset)
  trapSite : other.trapSiteAt? (twin.base + offset) = code.trapSiteAt? (block.base + offset)
  tryNote : other.tryNoteAt? (twin.base + offset) =
    (code.tryNoteAt? (block.base + offset)).map fun found => (twin, found.2)
  unwindInfo : other.unwindInfoAt? (twin.base + offset) = code.unwindInfoAt? (block.base + offset)
  funcRange : other.funcRangeAt? (twin.base + offset) =
    (code.funcRangeAt? (block.base + offset)).map fun found =>
      { found with home := some twin.serial }

end ModuleCode

namespace Process

variable {since later : Memory} {p q : Process} {code other : ModuleCode} {block twin : Block}
  {offset pc : Nat}

/-- A lookup among the tiers of a module finds the code range of the one that contains the address. -/
theorem InStep.funcRangeAt?_eq (h : InStep since p) (hcode : code ∈ p.codes)
    (htiers : code.tiers ⊆ code.blocks) (hblock : block ∈ code.blocks)
    (hcontains : block.contains pc = true) :
    code.funcRangeAt? pc = if block ∈ code.tiers then
      ((block.range? pc).map fun range => { range, home := some block.serial }).filter
        (·.range.kind = .function) else none := by
  have helsewhere : ∀ tier ∈ code.tiers, tier ≠ block → ((tier.range? pc).map fun range =>
      ({ range, home := some tier.serial } : LocatedRange)) = none := by
    intro tier htier hne
    have hapart : tier.contains pc = false := by
      refine Bool.eq_false_iff.mpr fun hboth => hne ?_
      have hfound := (h.blockAt?_eq_some_iff hcode pc block).mpr ⟨hblock, hcontains⟩
      rw [(h.blockAt?_eq_some_iff hcode pc tier).mpr ⟨htiers htier, hboth⟩] at hfound
      exact Option.some.inj hfound
    rw [Block.range?_of_not_contains hapart]
    rfl
  rw [ModuleCode.funcRangeAt?]
  change (code.tiers.findSome? _).filter _ = _
  rw [findSome?_eq_of_forall_ne helsewhere]
  split <;> rfl

/-- The same offset stands for the same in two modules whose blocks there have the same tables. -/
theorem answersAlike (hp : InStep since p) (hq : InStep later q) (hcode : code ∈ p.codes)
    (hother : other ∈ q.codes) (htiers : code.tiers ⊆ code.blocks)
    (htiers' : other.tiers ⊆ other.blocks) (hblock : block ∈ code.blocks)
    (htwin : twin ∈ other.blocks) (hstart : block.start = 0) (hstart' : twin.start = 0)
    (hmirrors : twin.Mirrors block) (hsame : twin ∈ other.tiers ↔ block ∈ code.tiers)
    (hoffset : offset < block.length) : code.AnswersAlike block other twin offset := by
  have hoffset' : offset < twin.length := hmirrors.length ▸ hoffset
  have hcontains := Block.contains_base_add hoffset
  have hcontains' := Block.contains_base_add hoffset'
  have hat := (hp.blockAt?_eq_some_iff hcode _ block).mpr ⟨hblock, hcontains⟩
  have hat' := (hq.blockAt?_eq_some_iff hother _ twin).mpr ⟨htwin, hcontains'⟩
  have hlookup : twin.offsetOf? (twin.base + offset) = block.offsetOf? (block.base + offset) := by
    rw [Block.offsetOf?_base_add hstart hoffset, Block.offsetOf?_base_add hstart' hoffset']
  -- Whatever is looked up in the tables by the offset is found in both modules alike.
  have hlook {β : Type} (look : CodeTables → Nat → Option β) :
      ((other.blockAt? (twin.base + offset)).bind fun found =>
          (found.offsetOf? (twin.base + offset)).bind (look found.tables)) =
        (code.blockAt? (block.base + offset)).bind fun found =>
          (found.offsetOf? (block.base + offset)).bind (look found.tables) := by
    rw [hat, hat', Option.bind_some, Option.bind_some, hlookup, hmirrors.tables]
  refine
    { blockAt := ⟨hat, hat'⟩
      callSite := hlook CodeTables.callSite?
      stackMap := hlook CodeTables.stackMap?
      trapSite := hlook CodeTables.trapSite?
      tryNote := ?_
      unwindInfo := hlook CodeTables.unwindInfo?
      funcRange := ?_ }
  · rw [ModuleCode.tryNoteAt?, ModuleCode.tryNoteAt?, hat, hat', Option.bind_some, Option.bind_some,
      Block.tryNote?, Block.tryNote?, hlookup, hmirrors.tables, Option.map_map]
    rfl
  · have hrange : twin.range? (twin.base + offset) = block.range? (block.base + offset) := by
      rw [Block.range?, Block.range?, hlookup, hmirrors.tables]
    rw [hp.funcRangeAt?_eq hcode htiers hblock hcontains,
      hq.funcRangeAt?_eq hother htiers' htwin hcontains', hrange]
    by_cases htier : block ∈ code.tiers
    · rw [if_pos htier, if_pos (hsame.mpr htier)]
      cases block.range? (block.base + offset) with
      | none => rfl
      | some range =>
        by_cases hkind : range.kind = .function <;> simp [Option.filter, hkind]
    · rw [if_neg htier, if_neg fun hin => htier (hsame.mp hin)]
      rfl

end Process

end CompiledCode

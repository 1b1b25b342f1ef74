import CompiledCode.Block.Listing
import CompiledCode.Block.Lookup
import CompiledCode.Proofs.Image.Check
import CompiledCode.Proofs.Tables

/-!
# Blocks that carry compiled code

The tables of compiled code are checked before they are loaded: they are in order, and what they
mention is there. A block with such tables can therefore be asked for each of its exports, and for
whatever is at an address, and it can be listed.
-/

namespace CompiledCode

/-- Whether a block has the kind and the tables of compiled code, and the code at the start of its
segment. -/
structure Block.Carries (block : Block) (compiled : CompiledBlock) : Prop where
  kind : block.kind = compiled.kind
  tables : block.tables = compiled.tables
  start : block.start = 0
  stop : block.stop = compiled.code.length
  room : block.stop ≤ block.segment.capacity

/-- Whether lookups of addresses in a block find what its tables say, and nothing else. -/
structure Block.Locates (block : Block) : Prop where
  range : ∀ pc range, block.range? pc = some range ↔ range ∈ block.tables.ranges ∧
    block.addressOf range.start ≤ pc ∧ pc < block.addressOf range.stop
  callSite : ∀ pc site, block.callSite? pc = some site ↔ site ∈ block.tables.callSites ∧
    block.addressOf site.returnOffset = pc ∧ block.contains pc = true
  trapSite : ∀ pc site, block.trapSite? pc = some site ↔ site ∈ block.tables.trapSites ∧
    block.addressOf site.offset = pc ∧ block.contains pc = true
  stackMap : ∀ pc map, block.stackMap? pc = some map ↔ map ∈ block.tables.stackMaps ∧
    block.addressOf map.offset = pc ∧ block.contains pc = true

/-- A list has results if each of its entries has one. -/
theorem exists_mapM_eq_ok_iff {α β ε : Type} {f : α → Except ε β} {inputs : List α} :
    (∃ outputs, inputs.mapM f = .ok outputs) ↔ ∀ input ∈ inputs, ∃ output, f input = .ok output := by
  induction inputs with
  | nil => exact iff_of_true ⟨[], rfl⟩ (List.forall_mem_nil _)
  | cons input rest ih =>
    rw [List.forall_mem_cons, ← ih, List.mapM_cons]
    cases f input with
    | error fault => exact iff_of_false nofun nofun
    | ok output =>
      cases rest.mapM f with
      | error fault => exact iff_of_false nofun nofun
      | ok outputs => exact iff_of_true ⟨_, rfl⟩ ⟨⟨_, rfl⟩, _, rfl⟩

namespace Block

variable {block : Block} {memory : Memory}

/-- A code range can be listed if it does not end before it starts and the segment has all of it. -/
theorem exists_listRange_eq_ok_iff {range : CodeRange} :
    (∃ lines, block.listRange memory range = .ok lines) ↔
      range.start ≤ range.stop ∧ range.stop ≤ block.segment.capacity := by
  rw [listRange, Segment.read]
  split
  · rename_i hbounds
    exact iff_of_true ⟨_, rfl⟩ hbounds
  · rename_i hout
    exact iff_of_false nofun hout

/-- Code ranges can be listed if each one that is selected can be. -/
theorem exists_listing_eq_ok_iff {kinds : RangeKinds} :
    (∃ lines, block.listing memory kinds = .ok lines) ↔
      ∀ range ∈ block.tables.ranges, kinds.contains range.kind = true →
        range.start ≤ range.stop ∧ range.stop ≤ block.segment.capacity := by
  have hlists : (∃ lines, block.listing memory kinds = .ok lines) ↔
      ∃ lists, (block.tables.ranges.filter fun range => kinds.contains range.kind).mapM
        (block.listRange memory) = .ok lists := by
    rw [listing]
    cases (block.tables.ranges.filter fun range => kinds.contains range.kind).mapM
        (block.listRange memory) with
    | error violation => exact iff_of_false nofun nofun
    | ok lists => exact iff_of_true ⟨_, rfl⟩ ⟨_, rfl⟩
  simp only [hlists, exists_mapM_eq_ok_iff, exists_listRange_eq_ok_iff, List.mem_filter, and_imp]

end Block

namespace Block.Carries

variable {block : Block} {compiled : CompiledBlock} {count func pc : Nat}

/-- An export of the compiled code is found under its function. -/
theorem exists_exportOf_eq (h : block.Carries compiled) (hchecked : compiled.Checked count)
    {entry : FuncExport} (hentry : entry ∈ compiled.tables.exports) :
    ∃ index, block.exportOf entry.func = .ok (index, entry) := by
  obtain ⟨index, hindex⟩ := List.mem_iff_getElem?.mp hentry
  have hsorted := CodeTables.sorted_of_disorder? hchecked.inOrder
  have hfound : block.findExport? entry.func = some (index, entry) := by
    rw [findExport?, h.tables, CodeTables.export?]
    exact (findKey?_eq_some_iff hsorted.exports).mpr ⟨hindex, rfl⟩
  exact ⟨index, by rw [exportOf, hfound]⟩

/-- A function that the compiled code does not export has no export. -/
theorem exportOf_eq_error (h : block.Carries compiled) (hchecked : compiled.Checked count)
    (hnone : ∀ entry ∈ compiled.tables.exports, entry.func ≠ func) :
    block.exportOf func = .error (.notExported func) := by
  have hsorted := CodeTables.sorted_of_disorder? hchecked.inOrder
  have hmissing : block.findExport? func = none := by
    rw [findExport?, h.tables, CodeTables.export?]
    exact (findKey?_eq_none_iff hsorted.exports).mpr hnone
  rw [exportOf, hmissing]

/-- Whatever code ranges are selected, they can be listed. -/
theorem exists_listing_eq (h : block.Carries compiled) (hchecked : compiled.Checked count)
    (memory : Memory) (kinds : RangeKinds) : ∃ lines, block.listing memory kinds = .ok lines := by
  refine exists_listing_eq_ok_iff.mpr fun range hrange _ => ?_
  rw [h.tables] at hrange
  obtain ⟨hforward, hstop⟩ := CodeTables.le_of_boundsFault? hchecked.inBounds hrange
  exact ⟨hforward, Nat.le_trans hstop (h.stop ▸ h.room)⟩

/-- The code starts where the segment does. -/
theorem contains_iff (h : block.Carries compiled) :
    block.contains pc = true ↔
      block.segment.base ≤ pc ∧ pc < block.segment.base + compiled.code.length := by
  simp only [contains, Bool.and_eq_true, decide_eq_true_eq]
  rw [base, length, h.start, h.stop, Nat.add_zero, Nat.sub_zero]

/-- The offset of an address in the block is how far it is from the start of the segment. -/
theorem offsetOf?_eq_some_iff (h : block.Carries compiled) (hchecked : compiled.Checked count)
    {offset : Nat} :
    block.offsetOf? pc = some offset ↔ block.addressOf offset = pc ∧ block.contains pc = true := by
  have hsmall := hchecked.small
  simp only [offsetOf?, addressOf, h.contains_iff]
  split <;> simp only [Option.some.injEq, reduceCtorEq, false_iff] <;> omega

/-- A table that is searched for the offset of an address is searched for the entry at the address. -/
theorem bind_offsetOf?_eq_some_iff {α : Type} (h : block.Carries compiled)
    (hchecked : compiled.Checked count) {keyOf : α → Nat} {entries : List α}
    (hsorted : KeySorted keyOf entries) {entry : α} :
    ((block.offsetOf? pc).bind fun offset => (findKey? keyOf entries offset).map (·.2)) = some entry ↔
      entry ∈ entries ∧ block.addressOf (keyOf entry) = pc ∧ block.contains pc = true := by
  simp only [Option.bind_eq_some_iff, map_findKey?_eq_some_iff hsorted,
    h.offsetOf?_eq_some_iff hchecked]
  constructor
  · rintro ⟨_, hat, hin, rfl⟩
    exact ⟨hin, hat⟩
  · rintro ⟨hin, hat⟩
    exact ⟨_, hat, hin, rfl⟩

/-- Lookups of addresses find what the tables of the compiled code say. -/
theorem locates (h : block.Carries compiled) (hchecked : compiled.Checked count) : block.Locates := by
  have hsorted := CodeTables.sorted_of_disorder? hchecked.inOrder
  have hfits {range : CodeRange} (hin : range ∈ compiled.tables.ranges) :=
    CodeTables.le_of_boundsFault? hchecked.inBounds hin
  rw [← h.tables] at hsorted hfits
  constructor
  case range =>
    intro pc range
    rw [range?, Option.bind_eq_some_iff]
    simp only [h.offsetOf?_eq_some_iff hchecked,
      CodeTables.range?_eq_some_iff (h.tables ▸ hchecked.inOrder) fun range hin => (hfits hin).1]
    constructor
    · rintro ⟨offset, ⟨rfl, -⟩, hin, hcontains⟩
      simp only [CodeRange.contains, Bool.and_eq_true, decide_eq_true_eq] at hcontains
      exact ⟨hin, Nat.add_le_add_left hcontains.1 _, Nat.add_lt_add_left hcontains.2 _⟩
    · rintro ⟨hin, hfrom, hto⟩
      have hend := (hfits hin).2
      simp only [addressOf, h.contains_iff, CodeRange.contains, Bool.and_eq_true,
        decide_eq_true_eq] at hfrom hto ⊢
      exact ⟨pc - block.segment.base, by omega, hin, by omega⟩
  case callSite => exact fun pc site => h.bind_offsetOf?_eq_some_iff hchecked hsorted.callSites
  case trapSite => exact fun pc site => h.bind_offsetOf?_eq_some_iff hchecked hsorted.trapSites
  case stackMap => exact fun pc map => h.bind_offsetOf?_eq_some_iff hchecked hsorted.stackMaps

end Block.Carries

end CompiledCode

import CompiledCode.Block.Lookup
import CompiledCode.Proofs.Tables

/-!
# Searches and scans

Tables are searched by halving, and by three different rules: for a range that contains an offset,
for an entry with exactly that offset, and for the last entry that starts at or before it. In tables
that are in order each search answers what reading the whole table would: the one entry that fits
where there can be one alone, and the last one or the first one where there can be more. What a
program counter stands for in a block is what the tables say about its offset in the segment, which
need not be its offset in the block.
-/

namespace CompiledCode

/-- If no two entries fit then the one that is found is the list of those that fit. -/
theorem toList_eq_filter {α : Type} {fits : α → Bool} {entries : List α} {found : Option α}
    (hone : entries.Pairwise fun a b => fits a = true → fits b = false)
    (hfound : ∀ entry, found = some entry ↔ entry ∈ entries ∧ fits entry = true) :
    found.toList = entries.filter fits := by
  cases hcase : found with
  | none =>
    rw [Option.toList_none, eq_comm, List.filter_eq_nil_iff]
    intro entry hin hfits
    have hsome := (hfound entry).mpr ⟨hin, hfits⟩
    rw [hcase] at hsome
    contradiction
  | some entry =>
    obtain ⟨hin, hfits⟩ := (hfound entry).mp hcase
    obtain ⟨before, after, rfl⟩ := List.append_of_mem hin
    -- The entry splits the table into two parts in which no other one fits.
    obtain ⟨-, hafter, hbefore⟩ := List.pairwise_append.mp hone
    have hleft : before.filter fits = [] := List.filter_eq_nil_iff.mpr fun other hother hother' => by
      rw [hbefore other hother entry List.mem_cons_self hother'] at hfits
      contradiction
    have hright : after.filter fits = [] := List.filter_eq_nil_iff.mpr fun other hother hother' => by
      rw [(List.pairwise_cons.mp hafter).1 other hother hfits] at hother'
      contradiction
    rw [List.filter_append, List.filter_cons_of_pos hfits, hleft, hright]
    rfl

/-- If the entries that fit come first then they are the leading ones. -/
theorem takeWhile_eq_filter {α : Type} {fits : α → Bool} {entries : List α}
    (hfirst : entries.Pairwise fun a b => fits b = true → fits a = true) :
    entries.takeWhile fits = entries.filter fits := by
  induction entries with
  | nil => rfl
  | cons entry rest ih =>
    obtain ⟨hentry, hrest⟩ := List.pairwise_cons.mp hfirst
    by_cases hfits : fits entry = true
    · rw [List.takeWhile_cons_of_pos hfits, List.filter_cons_of_pos hfits, ih hrest]
    · rw [List.takeWhile_cons_of_neg hfits, List.filter_cons_of_neg hfits, eq_comm,
        List.filter_eq_nil_iff]
      exact fun other hother hother' => hfits (hentry other hother hother')

namespace KeySorted

variable {α : Type} {keyOf : α → Nat} {entries : List α}

/-- At most one entry of a sorted table has a key. -/
theorem pairwise_ne (hsorted : KeySorted keyOf entries) (key : Nat) :
    entries.Pairwise fun a b => decide (keyOf a = key) = true → decide (keyOf b = key) = false :=
  hsorted.imp fun hless ha => by
    rw [decide_eq_true_eq] at ha
    rw [decide_eq_false_iff_not]
    omega

/-- Looking a key up in a sorted table answers what reading all of it would. -/
theorem toList_findKey? (hsorted : KeySorted keyOf entries) (key : Nat) :
    ((findKey? keyOf entries key).map (·.2)).toList = entries.filter (keyOf · = key) := by
  refine toList_eq_filter (hsorted.pairwise_ne key) fun entry => ?_
  rw [map_findKey?_eq_some_iff hsorted, decide_eq_true_eq]

/-- Looking a key up in a sorted table answers what reading all of it would, and at which index. -/
theorem toList_findKey?_swap (hsorted : KeySorted keyOf entries) (key : Nat) :
    ((findKey? keyOf entries key).map Prod.swap).toList =
      entries.zipIdx.filter fun entry => keyOf entry.1 = key := by
  refine toList_eq_filter ?_ fun ⟨entry, index⟩ => ?_
  · have hone := hsorted.pairwise_ne key
    rw [← List.zipIdx_map_fst 0 entries, List.pairwise_map] at hone
    exact hone
  · rw [List.mem_zipIdx_iff_getElem?, decide_eq_true_eq, ← findKey?_eq_some_iff hsorted]
    constructor
    · intro hswapped
      obtain ⟨⟨index', entry'⟩, hfound, heq⟩ := Option.map_eq_some_iff.mp hswapped
      obtain ⟨rfl, rfl⟩ := Prod.mk.inj heq
      exact hfound
    · intro hfound
      rw [hfound]
      rfl

end KeySorted

namespace CodeTables

/-- What tables say about an offset. -/
structure Facts where
  /-- The code range that contains it. -/
  range : Option CodeRange := none
  /-- The call that returns there. -/
  callSite : Option CallSite := none
  /-- The references that are live when a call returns there. -/
  stackMap : Option StackMap := none
  /-- The trap that is raised there. -/
  trapSite : Option TrapSite := none
  /-- The innermost handler of exceptions from calls that return there. -/
  tryNote : Option TryNote := none
  /-- How to unwind there, if that is unusual. -/
  unwindInfo : Option UnwindInfo := none

/-- What searching the tables answers about an offset. -/
def factsAt (tables : CodeTables) (offset : Nat) : Facts where
  range := tables.range? offset
  callSite := tables.callSite? offset
  stackMap := tables.stackMap? offset
  trapSite := tables.trapSite? offset
  tryNote := tables.tryNote? offset
  unwindInfo := tables.unwindInfo? offset

/-- Whether facts about an offset are what is there when all of the tables are read. -/
structure Tells (tables : CodeTables) (offset : Nat) (facts : Facts) : Prop where
  range : facts.range.toList =
    tables.ranges.filter fun range => range.start ≤ offset ∧ offset < range.stop
  callSite : facts.callSite.toList = tables.callSites.filter (·.returnOffset = offset)
  stackMap : facts.stackMap.toList = tables.stackMaps.filter (·.offset = offset)
  trapSite : facts.trapSite.toList = tables.trapSites.filter (·.offset = offset)
  tryNote : facts.tryNote =
    (tables.tryNotes.filter fun note => note.start < offset ∧ offset ≤ note.stop).head?
  unwindInfo : facts.unwindInfo =
    (tables.unwindInfos.filter (·.offset ≤ offset)).getLast?.filter (·.how ≠ .normal)

variable {tables : CodeTables}

/-- The one range that contains an offset is found. -/
theorem toList_range? (hinOrder : tables.disorder? = none)
    (hforward : ∀ range ∈ tables.ranges, range.start ≤ range.stop) (offset : Nat) :
    (tables.range? offset).toList =
      tables.ranges.filter fun range => range.start ≤ offset ∧ offset < range.stop := by
  refine toList_eq_filter ((pairwise_ranges hinOrder hforward).imp fun hends ha => ?_) fun range => ?_
  · rw [decide_eq_true_eq] at ha
    rw [decide_eq_false_iff_not]
    omega
  · simp only [range?_eq_some_iff hinOrder hforward, CodeRange.contains, Bool.and_eq_true,
      decide_eq_true_eq]

/-- The last entry that starts at or before an offset is the one that holds there. -/
theorem unwindAt?_eq (hsorted : KeySorted (·.offset) tables.unwindInfos) (offset : Nat) :
    tables.unwindAt? offset = (tables.unwindInfos.filter (·.offset ≤ offset)).getLast? := by
  have hfirst := hsorted.pairwise_le offset
  let leading := tables.unwindInfos.takeWhile (·.offset ≤ offset)
  have hcount : partitionPoint (·.offset ≤ offset) tables.unwindInfos = leading.length :=
    partitionPoint_eq_length_takeWhile hfirst
  rw [← takeWhile_eq_filter hfirst, unwindAt?, searchKey_eq, hcount]
  change _ = leading.getLast?
  rw [List.getLast?_eq_getElem?]
  cases hlength : leading.length with
  | zero => rw [List.length_eq_zero_iff.mp hlength]; rfl
  | succ last =>
    -- Whether or not it is at the offset itself, the entry is the last of the leading ones.
    have hlast : tables.unwindInfos[last]? = leading[last]? := by
      have hin : last < leading.length := by omega
      have hin' := Nat.lt_of_lt_of_le hin (List.takeWhile_prefix _).length_le
      rw [List.getElem?_eq_getElem hin, List.getElem?_eq_getElem hin',
        (List.takeWhile_prefix _).getElem hin]
    dsimp only
    rw [Nat.add_sub_cancel, ← hlast]
    by_cases hthere : tables.unwindInfos[last]?.any (·.offset = offset) = true
    · rw [if_pos hthere]
    · rw [if_neg hthere]

/-- In tables in order searches answer what reading all of the tables would. -/
theorem tells_factsAt (hinOrder : tables.disorder? = none)
    (hforward : ∀ range ∈ tables.ranges, range.start ≤ range.stop) (offset : Nat) :
    tables.Tells offset (tables.factsAt offset) :=
  have hsorted := sorted_of_disorder? hinOrder
  { range := toList_range? hinOrder hforward offset
    callSite := hsorted.callSites.toList_findKey? offset
    stackMap := hsorted.stackMaps.toList_findKey? offset
    trapSite := hsorted.trapSites.toList_findKey? offset
    tryNote := by
      rw [List.head?_filter]
      refine congrArg (List.find? · tables.tryNotes) (funext fun note => ?_)
      rw [TryNote.covers, Bool.decide_and]
    unwindInfo := congrArg (Option.filter _) (unwindAt?_eq hsorted.unwindInfos offset) }

end CodeTables

/-- What searching for a program counter answers. -/
def Block.factsAt (block : Block) (pc : Nat) : CodeTables.Facts where
  range := block.range? pc
  callSite := block.callSite? pc
  stackMap := block.stackMap? pc
  trapSite := block.trapSite? pc
  tryNote := block.tryNote? pc
  unwindInfo := block.unwindInfo? pc

/-- A program counter in the code of a block is looked up by its offset in the segment, unless that
takes more than 32 bits, and no other program counter is. -/
theorem Block.factsAt_eq (block : Block) (pc : Nat) :
    block.factsAt pc =
      if (block.base ≤ pc ∧ pc < block.base + block.length) ∧
          pc - block.segment.base < UInt32.size then
        block.tables.factsAt (pc - block.segment.base)
      else {} := by
  simp only [factsAt, range?, callSite?, stackMap?, trapSite?, tryNote?, unwindInfo?, offsetOf?,
    contains, Bool.and_eq_true, decide_eq_true_eq]
  split <;> rfl

namespace CodeTables

/-- Tables in order are searched with the same answers that reading all of them would give, for every
offset and every function, and at most one range, call site, stack map, trap site or export fits. What
is known of a program counter in a block is what the tables say about its offset in the segment, a
number of 32 bits; of any other program counter nothing is known. -/
theorem searches_are_scans :
    (∀ tables : CodeTables, tables.disorder? = none →
      (∀ range ∈ tables.ranges, range.start ≤ range.stop) →
      (∀ offset, tables.Tells offset (tables.factsAt offset)) ∧
      ∀ func, ((tables.export? func).map Prod.swap).toList =
        tables.exports.zipIdx.filter fun entry => entry.1.func = func) ∧
    ∀ (block : Block) (pc : Nat), block.factsAt pc =
      if (block.base ≤ pc ∧ pc < block.base + block.length) ∧
          pc - block.segment.base < UInt32.size then
        block.tables.factsAt (pc - block.segment.base)
      else {} :=
  ⟨fun _ hinOrder hforward => ⟨tells_factsAt hinOrder hforward,
    (sorted_of_disorder? hinOrder).exports.toList_findKey?_swap⟩, Block.factsAt_eq⟩

/-- Tables with empty ranges and ranges that touch, nested handlers, and a place from which on
unwinding is usual again. -/
def adjoining : CodeTables where
  ranges := [⟨.interpEntry, some 0, 8, 8, 8⟩, ⟨.function, some 0, 8, 12, 8⟩,
    ⟨.jitEntry, some 0, 12, 12, 12⟩, ⟨.function, some 1, 12, 20, 12⟩]
  callSites := [⟨10, .func, 0⟩, ⟨12, .func, 1⟩, ⟨20, .imported, 2⟩]
  tryNotes := [⟨9, 12, 16, 0⟩, ⟨8, 14, 18, 0⟩]
  unwindInfos := [⟨8, .restoreFpRa⟩, ⟨12, .normal⟩]
  exports := [⟨0, 0, none⟩, ⟨3, 0, none⟩]

/-- Where one range ends and the next one starts there is that one alone, the call from before is
found together with its innermost handler, and unwinding is as usual. -/
theorem searches_are_scans_of_adjoining :
    adjoining.Tells 12 (adjoining.factsAt 12) ∧
      adjoining.range? 12 = some ⟨.function, some 1, 12, 20, 12⟩ ∧
      adjoining.callSite? 12 = some ⟨12, .func, 1⟩ ∧
      adjoining.tryNote? 12 = some ⟨9, 12, 16, 0⟩ ∧
      adjoining.unwindInfo? 11 = some ⟨8, .restoreFpRa⟩ ∧ adjoining.unwindInfo? 12 = none ∧
      ((adjoining.export? 3).map Prod.swap).toList = [(⟨3, 0, none⟩, 1)] := by
  obtain ⟨hoffsets, hexports⟩ := searches_are_scans.1 adjoining (by decide) (by decide)
  have hthere := hoffsets 12
  have hrange : (adjoining.range? 12).toList = [⟨.function, some 1, 12, 20, 12⟩] := hthere.range
  have hcallSite : (adjoining.callSite? 12).toList = [⟨12, .func, 1⟩] := hthere.callSite
  exact ⟨hthere, Option.toList_eq_singleton_iff.mp hrange,
    Option.toList_eq_singleton_iff.mp hcallSite, hthere.tryNote, (hoffsets 11).unwindInfo, hthere.unwindInfo, hexports 3⟩

end CodeTables

end CompiledCode

import CompiledCode.Image.Check
import Mathlib.Data.List.Basic
import Mathlib.Data.List.Find

/-!
# Which functions a block covers

A coverage map is filled from the code ranges in their order, and the first range of a function
stays. A check of the tables fills a bitmap from the code ranges of one kind. The map has a gap where
the bitmap has one: both are about the functions of a span that have a code range. One index stands
for an empty slot of the map, so that this is so for as many code ranges as there are other indices.
-/

namespace CompiledCode

/-- A function in a span has a place there. -/
theorem FuncSpan.contains_iff {funcs : FuncSpan} {func : Nat} :
    funcs.contains func = true ↔ funcs.first ≤ func ∧ func - funcs.first < funcs.size := by
  simp only [size, contains, Bool.and_eq_true, decide_eq_true_eq]
  omega

/-- The functions in a span are consecutive ones. -/
theorem FuncSpan.mem_range'_iff {funcs : FuncSpan} {func : Nat} :
    func ∈ List.range' funcs.first funcs.size ↔ funcs.contains func = true := by
  rw [List.mem_range'_1, contains_iff]
  omega

/-- The first of consecutive numbers that is wanted is found by its position as well. -/
theorem find?_range' (wanted : Nat → Bool) (first count : Nat) :
    (List.range' first count).find? wanted =
      ((List.range' first count).findIdx? wanted).map (first + ·) := by
  induction count generalizing first with
  | zero => rfl
  | succ count ih =>
    rw [List.range'_succ, List.find?_cons, List.findIdx?_cons]
    cases wanted first with
    | true => rfl
    | false =>
      simp only [Bool.false_eq_true, if_false, ih, Option.map_map]
      congr 1
      funext index
      simp only [Function.comp_apply]
      omega

namespace CodeTables

/-- Whether a function has a code range of a kind. -/
def hasRange (tables : CodeTables) (kind : RangeKind) (func : Nat) : Bool :=
  tables.ranges.any fun range => range.kind = kind && range.func = some func

/-- Marking the function of a range marks it if it is in the span, next to those marked before. -/
theorem mark_map (funcs : FuncSpan) (before : Nat → Bool) (range : CodeRange) :
    mark funcs ((List.range' funcs.first funcs.size).map before) range =
      (List.range' funcs.first funcs.size).map fun func => before func || range.func = some func := by
  rw [mark]
  split
  · rename_i own hfilter
    obtain ⟨hown, hin⟩ := Option.filter_eq_some_iff.mp hfilter
    rw [FuncSpan.contains_iff] at hin
    refine List.ext_getElem (by simp) fun i hi _ => ?_
    have hplace : own = funcs.first + i ↔ own - funcs.first = i := by omega
    simp only [List.getElem_set, List.getElem_map, List.getElem_range', hown, Nat.one_mul,
      Option.some.injEq, hplace]
    split <;> simp_all
  · rename_i hfilter
    refine List.map_congr_left fun func hin => ?_
    have hother : range.func ≠ some func := fun hown =>
      Option.filter_eq_none_iff.mp hfilter func hown (FuncSpan.mem_range'_iff.mp hin)
    rw [decide_eq_false hother, Bool.or_false]

/-- Marking the functions of ranges marks those in the span that have one, next to those marked before. -/
theorem foldl_mark (funcs : FuncSpan) (before : Nat → Bool) (ranges : List CodeRange) :
    ranges.foldl (mark funcs) ((List.range' funcs.first funcs.size).map before) =
      (List.range' funcs.first funcs.size).map fun func =>
        before func || ranges.any (·.func = some func) := by
  induction ranges generalizing before with
  | nil => simp
  | cons range rest ih =>
    rw [List.foldl_cons, mark_map, ih]
    simp only [List.any_cons, Bool.or_assoc]

/-- A function covered is marked if it has a code range of the kind in question. -/
theorem covered_eq (tables : CodeTables) (kind : RangeKind) :
    tables.covered kind =
      (List.range' tables.funcs.first tables.funcs.size).map (tables.hasRange kind) := by
  have hvacant : List.replicate tables.funcs.size false =
      (List.range' tables.funcs.first tables.funcs.size).map fun _ => false := by
    rw [List.map_const', List.length_range']
  rw [covered, hvacant, foldl_mark]
  refine List.map_congr_left fun func _ => ?_
  rw [Bool.false_or, List.any_filter, hasRange]

/-- The first function without a mark is the first one without a code range. -/
theorem uncovered?_eq (tables : CodeTables) (kind : RangeKind) :
    tables.uncovered? kind =
      (List.range' tables.funcs.first tables.funcs.size).find? (!tables.hasRange kind ·) := by
  rw [uncovered?, covered_eq, List.findIdx?_map, find?_range']
  rfl

end CodeTables

namespace Coverage

/-- Whether a map has one slot for each function of a span. -/
structure Spans (coverage : Coverage) (funcs : FuncSpan) : Prop where
  first : coverage.first = funcs.first
  size : coverage.size = funcs.size

variable {coverage : Coverage} {funcs : FuncSpan} {primary : RangeKind}

/-- A function has a slot if it is in the span. -/
theorem Spans.slot?_eq (h : coverage.Spans funcs) (func : Nat) :
    coverage.slot? func = if funcs.contains func then some (func - funcs.first) else none := by
  simp only [slot?, h.first, h.size, FuncSpan.contains_iff]

/-- A map without code ranges has none for any function. -/
theorem lookup_vacant (first count func : Nat) : (vacant first count).lookup func = none := by
  rw [lookup]
  split
  · rename_i slot _
    rw [vacant, List.getElem?_replicate]
    split <;> rfl
  · rfl

theorem spans_vacant (funcs : FuncSpan) : (vacant funcs.first funcs.size).Spans funcs :=
  ⟨rfl, List.length_replicate⟩

/-- The slot of a function in the span can be set, and no other function is affected. -/
theorem Spans.exists_insert_eq (h : coverage.Spans funcs) {func index : Nat}
    (hin : funcs.contains func = true) (hindex : index ≠ reservedIndex) :
    ∃ next, coverage.insert func index = some next ∧ next.Spans funcs ∧
      ∀ other, next.lookup other = if other = func then some index else coverage.lookup other := by
  have hslot := h.slot?_eq func
  rw [if_pos hin] at hslot
  rw [insert, hslot]
  refine ⟨_, rfl, ⟨h.first, List.length_set.trans h.size⟩, fun other => ?_⟩
  have hnext : (⟨coverage.first, coverage.slots.set (func - funcs.first) (some index)⟩ : Coverage).Spans
      funcs := ⟨h.first, List.length_set.trans h.size⟩
  have hbound : func - funcs.first < coverage.slots.length := by
    have hsize : coverage.slots.length = funcs.size := h.size
    rw [hsize]
    exact (FuncSpan.contains_iff.mp hin).2
  rw [if_neg hindex, lookup, lookup, hnext.slot?_eq, h.slot?_eq]
  by_cases hother : funcs.contains other = true
  · rw [if_pos hother]
    dsimp only
    rw [List.getElem?_set]
    rw [FuncSpan.contains_iff] at hin hother
    by_cases hsame : other = func
    · rw [if_pos hsame, hsame, if_pos rfl, if_pos hbound]
      rfl
    · rw [if_neg hsame, if_neg (by omega)]
  · rw [if_neg hother]
    have hne : other ≠ func := fun hsame => hother (hsame ▸ hin)
    rw [if_neg hne]

/-- Whether a code range is the primary one of a function, as far as its kind goes. -/
def matching (primary : RangeKind) (func : Nat) (range : CodeRange) : Bool :=
  range.kind = primary && range.func = some func

/-- Noting a range gives it to its function, if that is in the span and has none. -/
theorem Spans.note (h : coverage.Spans funcs) (primary : RangeKind) (range : CodeRange) {index : Nat}
    (hindex : index ≠ reservedIndex) :
    (coverage.note primary funcs (range, index)).Spans funcs ∧
      ∀ func, (coverage.note primary funcs (range, index)).lookup func =
        (coverage.lookup func).or
          (if funcs.contains func ∧ matching primary func range then some index else none) := by
  rw [Coverage.note]
  cases hfunc : range.func with
  | none => exact ⟨h, fun func => by simp [matching, hfunc]⟩
  | some own =>
    dsimp only
    split
    · rename_i hnew
      obtain ⟨hkind, hin, hvacant⟩ := hnew
      obtain ⟨next, hinsert, hspans, hlookup⟩ := h.exists_insert_eq hin hindex
      rw [hinsert, Option.getD_some]
      refine ⟨hspans, fun func => ?_⟩
      rw [hlookup]
      by_cases hsame : func = own
      · have hown : matching primary own range = true := by simp [matching, hkind, hfunc]
        rw [if_pos hsame, hsame, Option.isNone_iff_eq_none.mp hvacant, if_pos ⟨hin, hown⟩, Option.none_or]
      · have hother : ¬ matching primary func range = true := by simp [matching, hfunc, Ne.symm hsame]
        rw [if_neg hsame, if_neg fun hmatching => hother hmatching.2, Option.or_none]
    · rename_i hold
      refine ⟨h, fun func => ?_⟩
      split
      · rename_i hmatching
        -- The range is that of its function, which has another one already.
        obtain ⟨hin, hmatching⟩ := hmatching
        simp only [matching, hfunc, Bool.and_eq_true, decide_eq_true_eq, Option.some.injEq] at hmatching
        obtain ⟨hkind, rfl⟩ := hmatching
        have hsome : (coverage.lookup own).isNone = false :=
          Bool.eq_false_iff.mpr fun hvacant => hold ⟨hkind, hin, hvacant⟩
        cases hlookup : coverage.lookup own with
        | none =>
          rw [hlookup] at hsome
          contradiction
        | some first => rfl
      · rw [Option.or_none]

/-- Noting ranges gives each function in the span the first of its ranges, unless it has one. -/
theorem Spans.foldl_note (h : coverage.Spans funcs) (primary : RangeKind) (ranges : List CodeRange)
    {start : Nat} (hlength : start + ranges.length ≤ reservedIndex) :
    ((ranges.zipIdx start).foldl (Coverage.note primary funcs) coverage).Spans funcs ∧
      ∀ func, ((ranges.zipIdx start).foldl (Coverage.note primary funcs) coverage).lookup func =
        (coverage.lookup func).or
          (if funcs.contains func then
            (ranges.findIdx? (matching primary func)).map (start + ·) else none) := by
  induction ranges generalizing coverage start with
  | nil => exact ⟨h, fun func => by simp⟩
  | cons range rest ih =>
    rw [List.length_cons] at hlength
    have hindex : start ≠ reservedIndex := by omega
    obtain ⟨hspans, hlookup⟩ := h.note primary range hindex
    have hrest : start + 1 + rest.length ≤ reservedIndex := by omega
    obtain ⟨hafter, hall⟩ := ih hspans hrest
    rw [List.zipIdx_cons, List.foldl_cons]
    refine ⟨hafter, fun func => ?_⟩
    rw [hall, hlookup, Option.or_assoc, List.findIdx?_cons]
    congr 1
    by_cases hin : funcs.contains func = true
    · by_cases hmatching : matching primary func range = true
      · simp [hin, hmatching]
      · simp only [hin, hmatching, true_and, Bool.false_eq_true, if_false, if_true, Option.none_or,
          Option.map_map]
        congr 1
        funext index
        simp only [Function.comp_apply]
        omega
    · simp [hin]

/-- The map of a block has a slot for each function of the block, and the code range of a function in
it is its first one of the primary kind. -/
theorem spans_ofTables {tables : CodeTables} (hlength : tables.ranges.length ≤ reservedIndex)
    (kind : BlockKind) :
    (ofTables kind tables).Spans tables.funcs ∧
      ∀ func, (ofTables kind tables).lookup func =
        if tables.funcs.contains func then
          tables.ranges.findIdx? (matching kind.primaryRange func) else none := by
  rw [← Nat.zero_add tables.ranges.length] at hlength
  obtain ⟨hspans, hlookup⟩ :=
    (spans_vacant tables.funcs).foldl_note kind.primaryRange tables.ranges hlength
  refine ⟨hspans, fun func => ?_⟩
  rw [ofTables, hlookup, lookup_vacant, Option.none_or]
  simp

/-- The slots of a map are what it answers for the functions of its span. -/
theorem Spans.slots_eq (h : coverage.Spans funcs) :
    coverage.slots = (List.range' funcs.first funcs.size).map coverage.lookup := by
  have hsize : coverage.slots.length = funcs.size := h.size
  apply List.ext_getElem
  · simp [hsize]
  · intro i hi _
    have hin : funcs.contains (funcs.first + i) = true := by
      simp only [FuncSpan.contains, FuncSpan.size, Bool.and_eq_true, decide_eq_true_eq] at hsize ⊢
      omega
    simp [lookup, h.slot?_eq, hin, List.getElem?_eq_getElem hi]

/-- The first gap in the map of a block is the first function that its tables leave uncovered. -/
theorem gap?_ofTables {tables : CodeTables} (hlength : tables.ranges.length ≤ reservedIndex)
    (kind : BlockKind) : (ofTables kind tables).gap? = tables.uncovered? kind.primaryRange := by
  obtain ⟨hspans, hlookup⟩ := spans_ofTables hlength kind
  rw [gap?, hspans.slots_eq, hspans.first, List.findIdx?_map, ← find?_range',
    CodeTables.uncovered?_eq]
  refine List.find?_congr fun func hin => ?_
  rw [Function.comp_apply, hlookup, if_pos (FuncSpan.mem_range'_iff.mp hin), List.findIdx?_isNone,
    CodeTables.hasRange]
  simp [matching, List.not_any_eq_all_not]

/-- A block whose tables leave no function uncovered can be bound. -/
theorem requireFull_ofTables {tables : CodeTables} (hlength : tables.ranges.length ≤ reservedIndex)
    {kind : BlockKind} (h : tables.uncovered? kind.primaryRange = none) :
    (ofTables kind tables).requireFull = .ok () := by
  rw [requireFull, gap?_ofTables hlength, h]

/-- A block that covers no function can be bound, however many code ranges it has. -/
theorem requireFull_ofTables_of_empty {tables : CodeTables} (hempty : tables.funcs = {}) (kind : BlockKind) :
    (ofTables kind tables).requireFull = .ok () := by
  have hnote (entry : CodeRange × Nat) (coverage : Coverage) :
      note kind.primaryRange {} coverage entry = coverage := by
    rw [note]
    split
    · rfl
    · rw [if_neg fun h => Nat.not_lt_zero _ (of_decide_eq_true (Bool.and_eq_true_iff.mp h.2.1).2)]
  rw [ofTables, hempty, List.foldl_fixed' fun entry => hnote entry _]
  rfl

/-- In a block that can be bound every function has a primary code range. -/
theorem hasRange_of_requireFull {tables : CodeTables} (hlength : tables.ranges.length ≤ reservedIndex)
    {kind : BlockKind} (h : (ofTables kind tables).requireFull = .ok ()) {func : Nat}
    (hin : tables.funcs.contains func = true) : tables.hasRange kind.primaryRange func = true := by
  rw [requireFull, gap?_ofTables hlength] at h
  split at h
  · contradiction
  · rename_i hnone
    rw [CodeTables.uncovered?_eq] at hnone
    simpa using List.find?_eq_none.mp hnone func (FuncSpan.mem_range'_iff.mpr hin)

end Coverage

end CompiledCode

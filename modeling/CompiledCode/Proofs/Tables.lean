import CompiledCode.Proofs.Bisection
import CompiledCode.Tables.Check
import CompiledCode.Tables.Search
import Mathlib.Data.List.TakeWhile
import Mathlib.Tactic.SplitIfs

/-!
# Tables in order

Tables stay in the order that searches rely on when the code that they describe is moved, as
every offset moves by the same distance. In tables that are in order every code range is found at the
offsets in it, and every entry of another table under its key.
-/

namespace CompiledCode

/-- Neighbours are related after a change of all entries as the changed entries are. -/
theorem chained_map {α β : Type} (related : β → β → Bool) (f : α → β) (entries : List α) :
    chained related (entries.map f) = chained (fun a b => related (f a) (f b)) entries := by
  induction entries with
  | nil => rfl
  | cons a rest ih =>
    cases rest with
    | nil => rfl
    | cons b rest =>
      rw [List.map_cons] at ih
      rw [List.map_cons, List.map_cons, chained, chained, ih]

/-- If a relation carries over from neighbour to neighbour then it holds between all entries. -/
theorem pairwise_of_chained {α : Type} {related : α → α → Bool} {R : α → α → Prop} {entries : List α}
    (htrans : ∀ {a b c}, R a b → R b c → R a c)
    (hrelated : ∀ a ∈ entries, ∀ b ∈ entries, related a b = true → R a b)
    (h : chained related entries = true) : entries.Pairwise R := by
  induction entries with
  | nil => exact .nil
  | cons a rest ih =>
    cases rest with
    | nil => exact List.pairwise_singleton ..
    | cons b rest =>
      rw [chained, Bool.and_eq_true] at h
      have hrest := ih (fun c hc d hd => hrelated c (List.mem_cons_of_mem a hc) d
        (List.mem_cons_of_mem a hd)) h.2
      have hab := hrelated a List.mem_cons_self b (List.mem_cons_of_mem a List.mem_cons_self) h.1
      refine List.pairwise_cons.mpr ⟨fun c hc => ?_, hrest⟩
      rcases List.mem_cons.mp hc with rfl | hc
      · exact hab
      · exact htrans hab ((List.pairwise_cons.mp hrest).1 c hc)

/-- If a relation holds between all entries then it holds between neighbours. -/
theorem chained_of_pairwise {α : Type} {related : α → α → Bool} {entries : List α}
    (h : entries.Pairwise fun a b => related a b = true) : chained related entries = true := by
  induction entries with
  | nil => rfl
  | cons a rest ih =>
    obtain ⟨ha, hrest⟩ := List.pairwise_cons.mp h
    cases rest with
    | nil => rfl
    | cons b rest => rw [chained, ha b List.mem_cons_self, ih hrest, Bool.true_and]

/-- A table whose neighbours increase is sorted. -/
theorem keySorted_of_chained {α : Type} {keyOf : α → Nat} {entries : List α}
    (h : chained (fun a b => keyOf a < keyOf b) entries = true) : KeySorted keyOf entries :=
  pairwise_of_chained Nat.lt_trans (fun _ _ _ _ hlt => of_decide_eq_true hlt) h

/-- An entry of a sorted table is found under its key, and nothing else is. -/
theorem map_findKey?_eq_some_iff {α : Type} {keyOf : α → Nat} {entries : List α}
    (hsorted : KeySorted keyOf entries) {key : Nat} {entry : α} :
    (findKey? keyOf entries key).map (·.2) = some entry ↔ entry ∈ entries ∧ keyOf entry = key := by
  rw [Option.map_eq_some_iff, List.mem_iff_getElem?]
  constructor
  · rintro ⟨⟨index, found⟩, hfound, rfl⟩
    have hat := (findKey?_eq_some_iff hsorted).mp hfound
    exact ⟨⟨index, hat.1⟩, hat.2⟩
  · rintro ⟨⟨index, hindex⟩, hkey⟩
    exact ⟨(index, entry), (findKey?_eq_some_iff hsorted).mpr ⟨hindex, hkey⟩, rfl⟩

namespace CodeTables

/-- Moving the code changes nothing about the order of its tables. -/
theorem disorder?_shift (tables : CodeTables) (distance : Nat) :
    (tables.shift distance).disorder? = tables.disorder? := by
  rw [disorder?, disorder?, shift]
  simp only [chained_map, CodeRange.shift, Nat.add_le_add_iff_right, Nat.add_lt_add_iff_right]

variable {tables : CodeTables}

/-- Tables are in order if every table is. -/
theorem disorder?_eq_none_iff : tables.disorder? = none ↔
    chained (fun a b => a.stop ≤ b.start) tables.ranges = true ∧
    chained (fun a b => a.returnOffset < b.returnOffset) tables.callSites = true ∧
    chained (fun a b => a.offset < b.offset) tables.trapSites = true ∧
    chained (fun a b => a.offset < b.offset) tables.stackMaps = true ∧
    chained (fun a b => a.offset < b.offset) tables.unwindInfos = true ∧
    chained (fun a b => a.func < b.func) tables.exports = true := by
  rw [disorder?]
  split_ifs <;> simp_all

/-- Whether the tables other than that of code ranges have entries for distinct keys, in order. -/
structure Sorted (tables : CodeTables) : Prop where
  callSites : KeySorted (·.returnOffset) tables.callSites
  trapSites : KeySorted (·.offset) tables.trapSites
  stackMaps : KeySorted (·.offset) tables.stackMaps
  unwindInfos : KeySorted (·.offset) tables.unwindInfos
  exports : KeySorted (·.func) tables.exports

/-- Tables in order are sorted. -/
theorem sorted_of_disorder? (h : tables.disorder? = none) : tables.Sorted := by
  obtain ⟨-, hcallSites, htrapSites, hstackMaps, hunwindInfos, hexports⟩ := disorder?_eq_none_iff.mp h
  exact
    { callSites := keySorted_of_chained hcallSites
      trapSites := keySorted_of_chained htrapSites
      stackMaps := keySorted_of_chained hstackMaps
      unwindInfos := keySorted_of_chained hunwindInfos
      exports := keySorted_of_chained hexports }

/-- In tables in order, each code range ends before the next ones start. -/
theorem pairwise_ranges (h : tables.disorder? = none)
    (hforward : ∀ range ∈ tables.ranges, range.start ≤ range.stop) :
    tables.ranges.Pairwise fun a b => a.stop ≤ b.start ∧ b.start ≤ b.stop :=
  pairwise_of_chained (fun hab hbc => ⟨Nat.le_trans hab.1 (Nat.le_trans hab.2 hbc.1), hbc.2⟩)
    (fun _ _ b hb hle => ⟨of_decide_eq_true hle, hforward b hb⟩) (disorder?_eq_none_iff.mp h).1

/-- In tables in order, a code range is found at each offset in it. -/
theorem range?_eq_some_iff (h : tables.disorder? = none)
    (hforward : ∀ range ∈ tables.ranges, range.start ≤ range.stop) {offset : Nat} {range : CodeRange} :
    tables.range? offset = some range ↔ range ∈ tables.ranges ∧ range.contains offset = true := by
  have hpairwise := pairwise_ranges h hforward
  have hmono : tables.ranges.Pairwise fun a b =>
      decide (b.stop ≤ offset) = true → decide (a.stop ≤ offset) = true := by
    refine hpairwise.imp fun hab => ?_
    simp only [decide_eq_true_eq]
    exact Nat.le_trans (Nat.le_trans hab.1 hab.2)
  have hfirst : tables.ranges[partitionPoint (fun range => range.stop ≤ offset) tables.ranges]? =
      tables.ranges.find? fun range => !decide (range.stop ≤ offset) := by
    rw [getElem?_partitionPoint hmono, List.find?_not_eq_head?_dropWhile]
  rw [range?, locateRange?, hfirst]
  constructor
  · intro hfound
    split at hfound
    · rename_i other hother
      split_ifs at hfound with hcontains
      · obtain rfl := Option.some.inj hfound
        exact ⟨List.mem_of_find?_eq_some hother, hcontains⟩
      · contradiction
    · contradiction
  · rintro ⟨hin, hcontains⟩
    -- Every range before that one ends before it starts, hence before the offset.
    obtain ⟨before, after, hranges⟩ := List.append_of_mem hin
    have hwithin : range.start ≤ offset ∧ offset < range.stop := by
      simpa [CodeRange.contains] using hcontains
    have hnone : before.find? (fun range => !decide (range.stop ≤ offset)) = none := by
      refine List.find?_eq_none.mpr fun other hother => ?_
      rw [hranges] at hpairwise
      have hends := ((List.pairwise_append.mp hpairwise).2.2 other hother range List.mem_cons_self).1
      simpa using Nat.le_trans hends hwithin.1
    have hfound : tables.ranges.find? (fun range => !decide (range.stop ≤ offset)) = some range := by
      rw [hranges, List.find?_append, hnone, Option.none_or, List.find?_cons_of_pos]
      simpa using hwithin.2
    rw [hfound]
    simp only [hcontains, if_true, Option.map_some]

end CodeTables

end CompiledCode

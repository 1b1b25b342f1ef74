import CompiledCode.Stubs.Basic
import Mathlib.Data.List.Forall2

/-!
# The entries of requested stubs

Stubs that have the entries of every request have an interpreter entry for each, in the
order of the requests.
-/

namespace CompiledCode

/-- Whether the code range at an index is the interpreter entry of a function. -/
def InterpEntryAt (ranges : List CodeRange) (func index : Nat) : Prop :=
  ∃ range, ranges[index]? = some range ∧ range.kind = .interpEntry ∧ range.func = some func

/-- The first entry of a function is one of its entries. -/
theorem exists_of_entryIndex? {kind : RangeKind} {func index : Nat} {ranges : List CodeRange}
    (h : entryIndex? kind func ranges = some index) :
    ∃ range, ranges[index]? = some range ∧ range.kind = kind ∧ range.func = some func := by
  rw [entryIndex?, List.findIdx?_eq_some_iff_getElem] at h
  obtain ⟨hlt, hrange, -⟩ := h
  rw [Bool.and_eq_true, decide_eq_true_eq, decide_eq_true_eq] at hrange
  exact ⟨_, List.getElem?_eq_getElem hlt, hrange.2, hrange.1⟩

/-- The first entry of a function stays the first one when the ranges are moved. -/
theorem entryIndex?_shift (kind : RangeKind) (func : Nat) (ranges : List CodeRange)
    (distance : Nat) :
    entryIndex? kind func (ranges.map (·.shift distance)) = entryIndex? kind func ranges := by
  rw [entryIndex?, List.findIdx?_map]
  rfl

namespace CompiledStubs

/-- The entries of a function are the first ones that it has. -/
theorem entries?_eq_some {stubs : CompiledStubs} {func : Nat} {entries : StubEntries}
    (h : stubs.entries? func = some entries) :
    entryIndex? .interpEntry func stubs.tables.ranges = some entries.interp ∧
      entries.jit = entryIndex? .jitEntry func stubs.tables.ranges := by
  rw [entries?, Option.map_eq_some_iff] at h
  obtain ⟨interp, hinterp, rfl⟩ := h
  exact ⟨hinterp, rfl⟩

/-- Entries for all requests are those of their functions, one by one. -/
theorem entriesFor_eq_ok {stubs : CompiledStubs} {requests : List StubRequest}
    {entries : List StubEntries} (h : stubs.entriesFor requests = .ok entries) :
    List.Forall₂ (fun request found => stubs.entries? request.func = some found) requests
      entries := by
  induction requests generalizing entries with
  | nil =>
    cases h
    exact .nil
  | cons request rest ih =>
    rw [entriesFor] at h
    split at h
    · contradiction
    · rename_i found hfound
      split at h
      · rename_i more hmore
        cases h
        exact .cons hfound (ih hmore)
      · contradiction

end CompiledStubs

end CompiledCode

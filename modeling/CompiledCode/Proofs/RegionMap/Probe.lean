import CompiledCode.RegionMap.Basic

/-!
# Lookups read by read

A lookup does not see a buffer at once: it reads the length and then one entry after the
other, and what it reads next depends on what it has read. A probe is such a lookup, and
evaluating it against entries that stay as they are gives its answer. The probe that
searches for an address by halving answers what the search itself answers.
-/

namespace CompiledCode

/-- What a lookup does with a buffer until it has its answer. -/
inductive Probe (ρ α : Type) where
  /-- The lookup has its answer. -/
  | answer (value : α)
  /-- The lookup reads the number of entries. -/
  | length (next : Nat → Probe ρ α)
  /-- The lookup reads the entry at an index. -/
  | entry (index : Nat) (next : Option (RegionEntry ρ) → Probe ρ α)

namespace Probe

variable {ρ α : Type}

/-- What is left of a lookup after its next read. -/
def after (entries : List (RegionEntry ρ)) : Probe ρ α → Probe ρ α
  | answer value => answer value
  | length next => next entries.length
  | entry index next => next entries[index]?

/-- The answer of a lookup whose reads all see the same entries. -/
def eval (entries : List (RegionEntry ρ)) : Probe ρ α → α
  | answer value => value
  | length next => (next entries.length).eval entries
  | entry index next => (next entries[index]?).eval entries

/-- A read takes a lookup towards the answer that it had been heading for. -/
theorem eval_after (entries : List (RegionEntry ρ)) (probe : Probe ρ α) :
    (probe.after entries).eval entries = probe.eval entries := by
  cases probe <;> rfl

/-- Halves a window of candidates, reading the entry in the middle in each round. -/
def narrow (asks : RegionEntry ρ → Bool) (finish : Nat → Probe ρ α) :
    (rounds base size : Nat) → Probe ρ α
  | 0, base, _ => finish base
  | rounds + 1, base, size =>
    if size ≤ 1 then finish base
    else
      let half := size / 2
      entry (base + half) fun middle =>
        narrow asks finish rounds (if middle.any asks then base + half else base) (size - half)

/-- Searches for the entry that contains an address. -/
def find (pc : Nat) (finish : Option (RegionEntry ρ) → α) : Probe ρ α :=
  let ended (e : RegionEntry ρ) : Bool := e.stop ≤ pc
  length fun count =>
    narrow ended
      (fun base => entry base fun last =>
        entry (if last.any ended then base + 1 else base) fun found =>
          answer (finish (found.filter (·.start ≤ pc))))
      count 0 count

/-- Halving read by read leaves the same candidate as halving at once. -/
theorem eval_narrow (entries : List (RegionEntry ρ)) (asks : RegionEntry ρ → Bool)
    (finish : Nat → Probe ρ α) (rounds base size : Nat) :
    (narrow asks finish rounds base size).eval entries =
      (finish (CompiledCode.narrow (fun i => entries[i]?.any asks) rounds base size)).eval entries := by
  induction rounds generalizing base size with
  | zero => rfl
  | succ rounds ih =>
    rw [narrow, CompiledCode.narrow]
    split
    · rfl
    · exact ih _ _

/-- Searching read by read answers what searching at once answers. -/
theorem eval_find (entries : List (RegionEntry ρ)) (pc : Nat)
    (finish : Option (RegionEntry ρ) → α) :
    (find pc finish).eval entries = finish (RegionEntry.find? entries pc) := by
  change (narrow _ _ entries.length 0 entries.length).eval entries = _
  rw [eval_narrow]
  rfl

/-- The lookup of the region that contains an address. -/
def region (pc : Nat) : Probe ρ (Option ρ) := find pc fun found => found.map (·.region)

end Probe

end CompiledCode

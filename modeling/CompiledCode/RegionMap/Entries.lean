import CompiledCode.Bisection
import CompiledCode.Fault
import CompiledCode.Tables.Range

/-!
# Sorted entries of regions

A region occupies the addresses from its start up to its stop. Entries of
regions are kept sorted and disjoint, so that one search by halving finds the
only entry that can contain an address, or the only one that a new region can
run into.
-/

namespace CompiledCode

/-- Things that occupy a range of code addresses. -/
class Region (ρ : Type) where
  /-- The address of the first byte. -/
  start : ρ → Nat
  /-- The address after the last byte. -/
  stop : ρ → Nat
  /-- What tells a region apart from every other one, even at the same addresses. -/
  identity : ρ → Nat
  /-- The code range that contains an address, if the region knows it. -/
  rangeAt : ρ → Nat → Option CodeRange

/-- A region together with the addresses that it was registered for. -/
structure RegionEntry (ρ : Type) where
  /-- The address of the first byte. -/
  start : Nat
  /-- The address after the last byte. -/
  stop : Nat
  /-- The region itself. -/
  region : ρ
  deriving DecidableEq, Repr

namespace RegionEntry

variable {ρ : Type}

/-- The entry for a region. -/
def ofRegion [Region ρ] (region : ρ) : RegionEntry ρ where
  start := Region.start region
  stop := Region.stop region
  region := region

/-- The entry that contains an address. -/
def find? (entries : List (RegionEntry ρ)) (pc : Nat) : Option (RegionEntry ρ) :=
  let index := partitionPoint (fun entry => entry.stop ≤ pc) entries
  entries[index]?.filter (·.start ≤ pc)

/-- Adds an entry at its place; it must not overlap the entry that follows. -/
def insert (entry : RegionEntry ρ) (entries : List (RegionEntry ρ)) :
    Except Violation (List (RegionEntry ρ)) :=
  let index := partitionPoint (fun other => other.stop ≤ entry.start) entries
  match entries[index]? with
  | none => .ok (entries.insertIdx index entry)
  | some next =>
    if entry.stop ≤ next.start then .ok (entries.insertIdx index entry)
    else .error (.overlap entry.start entry.stop next.start next.stop)

/-- Removes the entry of a region, which has to be there. -/
def erase [Region ρ] (region : ρ) (entries : List (RegionEntry ρ)) :
    Except Violation (List (RegionEntry ρ)) :=
  match entries.findIdx? fun entry => Region.identity entry.region = Region.identity region with
  | some index => .ok (entries.eraseIdx index)
  | none => .error .notRegistered

end RegionEntry

end CompiledCode

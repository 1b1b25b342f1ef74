import CompiledCode.Op
import CompiledCode.RegionMap.Entries

/-!
# Maps from addresses to regions that readers search without waiting

A map keeps its entries twice. Readers search the buffer that is published; the
one writer at a time edits the other one, publishes it, waits until no lookup
is in progress, and repeats its edit on the buffer that it took back. Every
action here is one step that other threads can observe, and the sequential
operations are made of them.
-/

namespace CompiledCode

/-- A doubly buffered map from addresses to regions. -/
structure RegionMap (ρ : Type) where
  /-- The one buffer of entries. -/
  left : List (RegionEntry ρ) := []
  /-- The other buffer of entries. -/
  right : List (RegionEntry ρ) := []
  /-- Which of the buffers lookups search: the right one if set. -/
  front : Bool := false
  /-- How many lookups are in progress. -/
  lookups : Nat := 0
  deriving DecidableEq, Repr

namespace RegionMap

variable {ρ : Type}

/-- The entries in one of the two buffers. -/
def buffer (map : RegionMap ρ) (side : Bool) : List (RegionEntry ρ) :=
  if side then map.right else map.left

/-- The map with other entries in one of its buffers. -/
def setBuffer (map : RegionMap ρ) (side : Bool) (entries : List (RegionEntry ρ)) : RegionMap ρ :=
  if side then { map with right := entries } else { map with left := entries }

/-- The entries that lookups search. -/
def published (map : RegionMap ρ) : List (RegionEntry ρ) := map.buffer map.front

/-- The entries that only the writer sees. -/
def spare (map : RegionMap ρ) : List (RegionEntry ρ) := map.buffer (!map.front)

/-- A lookup announces itself. -/
def enter (map : RegionMap ρ) : RegionMap ρ := { map with lookups := map.lookups + 1 }

/-- A lookup is over. -/
def leave (map : RegionMap ρ) : RegionMap ρ := { map with lookups := map.lookups - 1 }

/-- Whether no lookup is in progress, which is what a writer waits for. -/
def drained (map : RegionMap ρ) : Bool := map.lookups == 0

/-- The writer publishes its buffer and takes back the other one. -/
def swap (map : RegionMap ρ) : RegionMap ρ := { map with front := !map.front }

/-- The writer edits its buffer; a violated edit changes nothing. -/
def edit (change : List (RegionEntry ρ) → Except Violation (List (RegionEntry ρ))) :
    Op (RegionMap ρ) Unit := do
  let map ← get
  let entries ← Op.ofChecked (change map.spare)
  set (map.setBuffer (!map.front) entries)

/-- Edits the map: the spare buffer first, and the other one once the first is published. -/
def update (change : List (RegionEntry ρ) → Except Violation (List (RegionEntry ρ))) :
    Op (RegionMap ρ) Unit := do
  edit change
  modify swap
  edit change

/-- The region that contains an address. -/
def lookup (map : RegionMap ρ) (pc : Nat) : Option ρ :=
  (RegionEntry.find? map.published pc).map (·.region)

/-- The region that contains an address, with the code range that contains it. -/
def lookupRange [Region ρ] (map : RegionMap ρ) (pc : Nat) : Option (ρ × Option CodeRange) :=
  (map.lookup pc).map fun region => (region, Region.rangeAt region pc)

/-- The number of regions registered. -/
def size (map : RegionMap ρ) : Nat := map.published.length

/-- The size of an entry in bytes. -/
def entrySize : Nat := 24

/-- Registers a region, which has to have addresses and must not overlap another region. Without
room for another entry nothing is changed. -/
def insert [Region ρ] (region : ρ) (room : Bool := true) : Op (RegionMap ρ) Unit := do
  Op.require (Region.start region < Region.stop region) .emptyRegion
  if room then
    update (RegionEntry.ofRegion region).insert
  else
    let _ ← Op.ofChecked ((RegionEntry.ofRegion region).insert (← get).spare)
    Op.fail (.outOfMemory entrySize)

/-- Removes a region that is registered and answers how many are left. -/
def remove [Region ρ] (region : ρ) : Op (RegionMap ρ) Nat := do
  update (RegionEntry.erase region)
  return (← get).spare.length

end RegionMap

end CompiledCode

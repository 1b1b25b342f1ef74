import CompiledCode.RegionMap.Basic

/-!
# A lookup and an insertion at the same time

While a lookup is searching, a writer can edit and publish the spare buffer but
has to wait with its second edit, as that would change the entries being
searched. Lookups that start after the swap find the new region already.
-/

namespace CompiledCode.RegionMap

variable {ρ : Type}

/-- What is observed when a region is inserted during a lookup. -/
structure Overlapped (ρ : Type) where
  /-- What the lookup that was in progress answers. -/
  reader : Option (ρ × Option CodeRange)
  /-- What a lookup that starts after the swap finds at the start of the new region. -/
  latest : Option ρ
  /-- Whether the writer still had to wait for the first lookup. -/
  writerWaits : Bool

/-- Inserts a region while a lookup of `pc` is in progress, and lets both finish. -/
def insertDuringLookup [Region ρ] (pc : Nat) (region : ρ) : Op (RegionMap ρ) (Overlapped ρ) := do
  modify enter
  let searched ← get
  Op.require (Region.start region < Region.stop region) .emptyRegion
  edit (RegionEntry.ofRegion region).insert
  modify swap
  let latest := (← get).lookup (Region.start region)
  let writerWaits := !(← get).drained
  let reader := searched.lookupRange pc
  modify leave
  edit (RegionEntry.ofRegion region).insert
  return { reader, latest, writerWaits }

end CompiledCode.RegionMap

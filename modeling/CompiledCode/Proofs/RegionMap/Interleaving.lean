import CompiledCode.Proofs.RegionMap.Entries
import CompiledCode.Proofs.RegionMap.Probe
import CompiledCode.Proofs.RegionMap.Update
import Mathlib.Logic.Function.Basic

/-!
# Readers and writers of one map

Any number of readers and writers work on one map, one atomic action at a time and in any
order. A reader counts itself in, loads which buffer is published, reads that buffer entry
by entry and counts itself out. A writer takes the mutex, edits the spare buffer, swaps the
buffers, waits until it sees no reader counted in, repeats its edit on the buffer that it
took back, and releases the mutex.

An insertion for which there is no memory is given up before the swap. Without memory for
its second edit the process ends, which no further step stands for. A violated edit poisons
the mutex: it is released, and no writer gets it again.

The set of regions that a map stands for is read off the steps taken so far, and changes
with the swaps alone.
-/

namespace CompiledCode.RegionMap

variable {Reader Writer ρ α : Type}

/-- What a writer wants of the map. -/
inductive Change (ρ : Type) where
  /-- Register a region. -/
  | insert (region : ρ)
  /-- Take a region out. -/
  | remove (region : ρ)

namespace Change

/-- The edit of a buffer that makes the change. -/
def apply [Region ρ] : Change ρ → List (RegionEntry ρ) → Except Violation (List (RegionEntry ρ))
  | insert region => (RegionEntry.ofRegion region).insert
  | remove region => RegionEntry.erase region

/-- The region that is registered or taken out. -/
def region : Change ρ → ρ
  | insert region => region
  | remove region => region

/-- The change of the set of regions. -/
def on : Change ρ → Set ρ → Set ρ
  | insert region, regions => Insert.insert region regions
  | remove region, regions => regions \ {region}

/-- Whether a writer gets as far as taking the mutex: a region to register must have addresses. -/
def Admitted [Region ρ] : Change ρ → Prop
  | insert region => Region.start region < Region.stop region
  | remove _ => True

end Change

/-- How far the writer is that holds the mutex. -/
inductive Phase where
  /-- It has the mutex and nothing else yet. -/
  | locked
  /-- The spare buffer is edited. -/
  | edited
  /-- The buffers are swapped. -/
  | swapped
  /-- No reader was counted in at some time after the swap. -/
  | drained
  /-- The other buffer is edited, too. -/
  | mirrored
  deriving DecidableEq, Repr

/-- The mutex that makes its holder the writer. -/
inductive Mutex (Writer ρ : Type) where
  /-- Nobody has the mutex. -/
  | free
  /-- A writer has the mutex in order to make a change. -/
  | held (writer : Writer) (change : Change ρ) (phase : Phase)
  /-- A holder was violated, so that nobody gets the mutex any more. -/
  | poisoned

/-- Where a reader is. -/
inductive Reading (ρ α : Type) where
  /-- The reader is not looking anything up. -/
  | idle
  /-- The reader is counted in. -/
  | entered (probe : Probe ρ α)
  /-- The reader has loaded which buffer to read, and has `rest` of its probe ahead. -/
  | searching (side : Bool) (probe rest : Probe ρ α)

namespace Reading

/-- Whether a reader is counted in. -/
def counted : Reading ρ α → Bool
  | idle => false
  | entered _ => true
  | searching _ _ _ => true

/-- The buffer that a reader has loaded and not released. -/
def side? : Reading ρ α → Option Bool
  | idle => none
  | entered _ => none
  | searching side _ _ => some side

@[simp] theorem counted_idle : (idle : Reading ρ α).counted = false := rfl

@[simp] theorem counted_entered (probe : Probe ρ α) : (entered probe).counted = true := rfl

@[simp] theorem counted_searching (side : Bool) (probe rest : Probe ρ α) :
    (searching side probe rest).counted = true := rfl

@[simp] theorem side?_idle : (idle : Reading ρ α).side? = none := rfl

@[simp] theorem side?_entered (probe : Probe ρ α) : (entered probe).side? = none := rfl

@[simp] theorem side?_searching (side : Bool) (probe rest : Probe ρ α) :
    (searching side probe rest).side? = some side := rfl

end Reading

/-- A map with the threads that use it. -/
structure Threads (Reader Writer ρ α : Type) where
  /-- The map. -/
  map : RegionMap ρ := {}
  /-- The mutex of the writers. -/
  mutex : Mutex Writer ρ := .free
  /-- Where each reader is. -/
  readers : Reader → Reading ρ α := fun _ => .idle

/-- What a step does. -/
inductive Event (Reader Writer ρ α : Type) where
  /-- A reader counts itself in. -/
  | enter (reader : Reader)
  /-- A reader loads which buffer is published. -/
  | load (reader : Reader)
  /-- A reader reads from the buffer that it loaded. -/
  | read (reader : Reader)
  /-- A reader counts itself out, with its answer. -/
  | leave (reader : Reader) (probe : Probe ρ α) (value : α)
  /-- A writer takes the mutex in order to make a change. -/
  | lock (writer : Writer) (change : Change ρ)
  /-- A writer edits the spare buffer. -/
  | edit (writer : Writer)
  /-- A writer gives up for want of memory. -/
  | refuse (writer : Writer)
  /-- A writer swaps the buffers. -/
  | swap (writer : Writer) (change : Change ρ)
  /-- A writer sees that no reader is counted in. -/
  | drain (writer : Writer)
  /-- A writer repeats its edit on the buffer that it took back. -/
  | mirror (writer : Writer)
  /-- A writer releases the mutex. -/
  | unlock (writer : Writer)
  /-- An edit is violated and poisons the mutex. -/
  | breach (writer : Writer)

/-- The buffer that a step edits, completely or until it is violated. -/
def Event.edits? (map : RegionMap ρ) : Event Reader Writer ρ α → Option Bool
  | edit _ => some !map.front
  | mirror _ => some !map.front
  | breach _ => some !map.front
  | _ => none

/-- The atomic steps of readers and writers. -/
inductive Step [DecidableEq Reader] [Region ρ] :
    Threads Reader Writer ρ α → Event Reader Writer ρ α → Threads Reader Writer ρ α → Prop where
  | enter {s} (reader : Reader) (probe : Probe ρ α) (hidle : s.readers reader = .idle) :
      Step s (.enter reader)
        { s with map := s.map.enter, readers := Function.update s.readers reader (.entered probe) }
  | load {s} (reader : Reader) (probe : Probe ρ α) (hentered : s.readers reader = .entered probe) :
      Step s (.load reader)
        { s with
          readers := Function.update s.readers reader (.searching s.map.front probe probe) }
  | read {s} (reader : Reader) (side : Bool) (probe rest : Probe ρ α)
      (hsearching : s.readers reader = .searching side probe rest) :
      Step s (.read reader)
        { s with
          readers := Function.update s.readers reader
            (.searching side probe (rest.after (s.map.buffer side))) }
  | leave {s} (reader : Reader) (side : Bool) (probe : Probe ρ α) (value : α)
      (hdone : s.readers reader = .searching side probe (.answer value)) :
      Step s (.leave reader probe value)
        { s with map := s.map.leave, readers := Function.update s.readers reader .idle }
  | lock {s} (writer : Writer) (change : Change ρ) (hfree : s.mutex = .free)
      (hadmitted : change.Admitted) :
      Step s (.lock writer change) { s with mutex := .held writer change .locked }
  | edit {s} (writer : Writer) (change : Change ρ) (map : RegionMap ρ)
      (hheld : s.mutex = .held writer change .locked)
      (hedit : RegionMap.edit change.apply s.map = .ok () map) :
      Step s (.edit writer) { s with map, mutex := .held writer change .edited }
  | refuse {s} (writer : Writer) (region : ρ)
      (hheld : s.mutex = .held writer (.insert region) .locked) :
      Step s (.refuse writer) { s with mutex := .free }
  | swap {s} (writer : Writer) (change : Change ρ) (hheld : s.mutex = .held writer change .edited) :
      Step s (.swap writer change)
        { s with map := s.map.swap, mutex := .held writer change .swapped }
  | drain {s} (writer : Writer) (change : Change ρ)
      (hheld : s.mutex = .held writer change .swapped) (hdrained : s.map.drained = true) :
      Step s (.drain writer) { s with mutex := .held writer change .drained }
  | mirror {s} (writer : Writer) (change : Change ρ) (map : RegionMap ρ)
      (hheld : s.mutex = .held writer change .drained)
      (hedit : RegionMap.edit change.apply s.map = .ok () map) :
      Step s (.mirror writer) { s with map, mutex := .held writer change .mirrored }
  | unlock {s} (writer : Writer) (change : Change ρ)
      (hheld : s.mutex = .held writer change .mirrored) :
      Step s (.unlock writer) { s with mutex := .free }
  | breach {s} (writer : Writer) (change : Change ρ) (phase : Phase) (fault : Fault)
      (map : RegionMap ρ) (hheld : s.mutex = .held writer change phase)
      (hphase : phase = .locked ∨ phase = .drained)
      (hedit : RegionMap.edit change.apply s.map = .error fault map) :
      Step s (.breach writer) { s with map, mutex := .poisoned }

/-- The states that steps lead to from an empty map, with the steps taken, latest first. -/
inductive Run [DecidableEq Reader] [Region ρ] :
    List (Event Reader Writer ρ α) → Threads Reader Writer ρ α → Prop where
  | start : Run [] {}
  | step {trace s event t} (run : Run trace s) (step : Step s event t) : Run (event :: trace) t

/-- The set of regions after some steps: every swap publishes the change of its writer. -/
def registered : List (Event Reader Writer ρ α) → Set ρ
  | [] => ∅
  | .swap _ change :: earlier => change.on (registered earlier)
  | _ :: earlier => registered earlier

/-- The regions that writers have come with. -/
def involved : List (Event Reader Writer ρ α) → Set ρ
  | [] => ∅
  | .lock _ change :: earlier => Insert.insert change.region (involved earlier)
  | _ :: earlier => involved earlier

/-- The steps before the latest one in which a reader loaded the published buffer. -/
def beforeLoad [DecidableEq Reader] (reader : Reader) :
    List (Event Reader Writer ρ α) → List (Event Reader Writer ρ α)
  | [] => []
  | .load other :: earlier => if other = reader then earlier else beforeLoad reader earlier
  | _ :: earlier => beforeLoad reader earlier

/-- A step changes no buffer but the one that it edits. -/
theorem Step.buffer_eq [DecidableEq Reader] [Region ρ] {s t : Threads Reader Writer ρ α}
    {event : Event Reader Writer ρ α}
    (hstep : Step s event t) {side : Bool} (hother : event.edits? s.map ≠ some side) :
    t.map.buffer side = s.map.buffer side := by
  cases hstep with
  | edit writer change map hheld hedit | mirror writer change map hheld hedit =>
    obtain ⟨entries, -, rfl⟩ := edit_eq_ok hedit
    rw [buffer_setBuffer, if_neg fun hside => hother (by rw [hside]; rfl)]
  | breach writer change phase fault map hheld hphase hedit =>
    obtain ⟨rfl, -⟩ := edit_eq_error hedit
    rfl
  | _ => rfl

/-- An update of the map is what a lone writer gets done with its steps. -/
theorem Run.update [DecidableEq Reader] [Region ρ] {trace : List (Event Reader Writer ρ α)}
    {s : Threads Reader Writer ρ α} (hrun : Run trace s) (writer : Writer) {change : Change ρ}
    {map : RegionMap ρ} (hfree : s.mutex = .free) (hdrained : s.map.drained = true)
    (hadmitted : change.Admitted) (h : RegionMap.update change.apply s.map = .ok () map) :
    ∃ steps, Run (steps ++ trace) { s with map } := by
  obtain ⟨edited, hedit, hmirror⟩ := update_eq_ok h
  obtain ⟨entries, -, rfl⟩ := edit_eq_ok hedit
  have hstill : (s.map.setBuffer (!s.map.front) entries).swap.drained = true := by
    rw [drained, swap, lookups_setBuffer]
    exact hdrained
  have hdone := hrun
    |>.step (.lock writer change hfree hadmitted) |>.step (.edit writer change _ rfl hedit)
    |>.step (.swap writer change rfl) |>.step (.drain writer change rfl hstill)
    |>.step (.mirror writer change map rfl hmirror) |>.step (.unlock writer change rfl)
  refine ⟨[.unlock writer, .mirror writer, .drain writer, .swap writer change, .edit writer,
    .lock writer change], ?_⟩
  rw [← hfree] at hdone
  exact hdone

end CompiledCode.RegionMap

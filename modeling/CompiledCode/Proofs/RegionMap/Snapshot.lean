import CompiledCode.Proofs.RegionMap.Interleaving
import CompiledCode.Proofs.RegionMap.Update
import Mathlib.Data.Finset.Card
import Mathlib.Data.Fintype.Basic

/-!
# Every lookup sees one version of the map

The invariant that carries the argument says how the buffers are related in each phase of a
writer, that the published one lists the registered regions, and that a buffer which is not
published has readers in it only while its writer is waiting for them. As the counter counts
every reader that is in between its first and its last step, a writer that sees it at zero
has the other buffer for itself until the next swap, also with readers coming in all the time.

Hence no edit meets a reader, a lookup reads one version of the map from its first read to
its last, and the buffers agree whenever nobody has the mutex.
-/

namespace CompiledCode.RegionMap

variable {Reader Writer ρ α : Type} [Region ρ]

/-- A change of entries that list a set makes them list the changed set. -/
theorem Change.lists {entries edited : List (RegionEntry ρ)} {regions : Set ρ} {change : Change ρ}
    (hidentity : ∀ other ∈ regions,
      Region.identity other = Region.identity change.region → other = change.region)
    (hlists : RegionEntry.Lists entries regions) (hadmitted : change.Admitted)
    (h : change.apply entries = .ok edited) : RegionEntry.Lists edited (change.on regions) := by
  cases change with
  | insert region => exact hlists.insert hadmitted h
  | remove region => exact hlists.erase hidentity h

omit [Region ρ] in
/-- After a change there is no region but those before it and the one it was about. -/
theorem Change.on_subset (change : Change ρ) (regions : Set ρ) :
    change.on regions ⊆ Insert.insert change.region regions := by
  cases change with
  | insert region => exact subset_rfl
  | remove region => exact Set.sdiff_subset.trans (Set.subset_insert region regions)

/-- How the two buffers are related, given who has the mutex and for what. -/
def Mutex.Agrees (map : RegionMap ρ) : Mutex Writer ρ → Prop
  | free => map.spare = map.published
  | poisoned => map.spare = map.published
  | held _ change phase =>
    change.Admitted ∧
      match phase with
      | .locked => map.spare = map.published
      | .edited => change.apply map.published = .ok map.spare
      | .swapped => change.apply map.spare = .ok map.published
      | .drained => change.apply map.spare = .ok map.published
      | .mirrored => map.spare = map.published

section Invariant

variable [Fintype Reader] [DecidableEq Reader]

/-- How many readers are counted in. -/
def countedIn (readers : Reader → Reading ρ α) : Nat :=
  (Finset.univ.filter fun reader => (readers reader).counted = true).card

/-- What holds of the threads at any time, given the steps taken so far. -/
structure Consistent (trace : List (Event Reader Writer ρ α)) (s : Threads Reader Writer ρ α) :
    Prop where
  /-- The counter counts the readers that are counted in. -/
  counted : s.map.lookups = countedIn s.readers
  /-- The published buffer lists the registered regions. -/
  published : RegionEntry.Lists s.map.published (registered trace)
  /-- No region is registered unless a writer came with it. -/
  known : registered trace ⊆ involved trace
  /-- The writer at work has come with its region. -/
  brought : ∀ writer change phase, s.mutex = .held writer change phase → change.region ∈ involved trace
  /-- The buffers are as far apart as the writer has taken them. -/
  agreed : s.mutex.Agrees s.map
  /-- A reader is heading for what its buffer answers, and its buffer is what it was. -/
  reading : ∀ reader side probe rest, s.readers reader = .searching side probe rest →
    rest.eval (s.map.buffer side) = probe.eval (s.map.buffer side) ∧
      RegionEntry.Lists (s.map.buffer side) (registered (beforeLoad reader trace))
  /-- Readers are left in the spare buffer only while the writer waits for them. -/
  waited : ∀ reader, (s.readers reader).side? = some (!s.map.front) →
    ∃ writer change, s.mutex = .held writer change .swapped

omit [Region ρ] in
/-- A reader that counts itself in is one more. -/
theorem countedIn_enter (readers : Reader → Reading ρ α) (reader : Reader) (probe : Probe ρ α)
    (hidle : readers reader = .idle) :
    countedIn (Function.update readers reader (.entered probe)) = countedIn readers + 1 := by
  have hset : (Finset.univ.filter fun other =>
      (Function.update readers reader (.entered probe) other).counted = true) =
        Insert.insert reader (Finset.univ.filter fun other => (readers other).counted = true) := by
    ext other
    rw [Finset.mem_filter, Finset.mem_insert, Finset.mem_filter, Function.update_apply]
    by_cases hother : other = reader
    · simp [hother]
    · simp [hother]
  have hout : reader ∉ Finset.univ.filter fun other => (readers other).counted = true := by
    simp [hidle]
  rw [countedIn, hset, Finset.card_insert_of_notMem hout, countedIn]

omit [Region ρ] in
/-- A reader that counts itself out is one less. -/
theorem countedIn_leave (readers : Reader → Reading ρ α) (reader : Reader)
    (hcounted : (readers reader).counted = true) :
    countedIn (Function.update readers reader .idle) = countedIn readers - 1 := by
  have hset : (Finset.univ.filter fun other =>
      (Function.update readers reader .idle other).counted = true) =
        (Finset.univ.filter fun other => (readers other).counted = true).erase reader := by
    ext other
    rw [Finset.mem_filter, Finset.mem_erase, Finset.mem_filter, Function.update_apply]
    by_cases hother : other = reader
    · simp [hother]
    · simp [hother]
  have hin : reader ∈ Finset.univ.filter fun other => (readers other).counted = true := by
    simp [hcounted]
  rw [countedIn, hset, Finset.card_erase_of_mem hin, countedIn]

omit [Region ρ] in
/-- A reader that goes on from one read to the next stays counted in. -/
theorem countedIn_update (readers : Reader → Reading ρ α) (reader : Reader) (next : Reading ρ α)
    (hsame : next.counted = (readers reader).counted) :
    countedIn (Function.update readers reader next) = countedIn readers := by
  have hset : (Finset.univ.filter fun other =>
      (Function.update readers reader next other).counted = true) =
        Finset.univ.filter fun other => (readers other).counted = true := by
    ext other
    rw [Finset.mem_filter, Finset.mem_filter, Function.update_apply]
    by_cases hother : other = reader
    · simp [hother, hsame]
    · simp [hother]
  rw [countedIn, hset, countedIn]

omit [Region ρ] [DecidableEq Reader] in
/-- With a counter of zero, nobody is in a buffer. -/
theorem side?_eq_none_of_countedIn_eq_zero {readers : Reader → Reading ρ α}
    (hzero : countedIn readers = 0) (reader : Reader) : (readers reader).side? = none := by
  rw [countedIn, Finset.card_eq_zero] at hzero
  have hout : reader ∉ Finset.univ.filter fun other => (readers other).counted = true := by
    simp [hzero]
  cases hreader : readers reader with
  | idle => rfl
  | entered probe => rfl
  | searching side probe rest => simp [hreader] at hout

variable {trace : List (Event Reader Writer ρ α)} {s : Threads Reader Writer ρ α}

/-- At the start nothing is registered and nobody is counted in. -/
theorem consistent_start : Consistent ([] : List (Event Reader Writer ρ α)) {} where
  counted := by simp [countedIn]
  published := RegionEntry.lists_nil
  known := subset_rfl
  brought writer change phase h := by simp at h
  agreed := rfl
  reading reader side probe rest h := by simp at h
  waited reader h := by simp at h

/-- Outside of the wait for the readers there is nobody in the spare buffer. -/
theorem Consistent.side?_ne_spare (h : Consistent trace s)
    (hmutex : ∀ writer change, s.mutex ≠ .held writer change .swapped) (reader : Reader) :
    (s.readers reader).side? ≠ some (!s.map.front) := by
  intro hside
  obtain ⟨writer, change, hheld⟩ := h.waited reader hside
  exact hmutex writer change hheld

/-- A reader may count itself in at any time. -/
theorem Consistent.enter (h : Consistent trace s) (reader : Reader) (probe : Probe ρ α)
    (hidle : s.readers reader = .idle) :
    Consistent (.enter reader :: trace)
      { s with map := s.map.enter, readers := Function.update s.readers reader (.entered probe) } where
  counted := by
    rw [countedIn_enter s.readers reader probe hidle, ← h.counted]
    rfl
  published := h.published
  known := h.known
  brought := h.brought
  agreed := by
    have hagreed := h.agreed
    cases hmutex : s.mutex <;> rw [hmutex] at hagreed <;> exact hagreed
  reading other side probe' rest hother := by
    simp only [Function.update_apply] at hother
    split at hother
    · contradiction
    · exact h.reading other side probe' rest hother
  waited other hside := by
    simp only [Function.update_apply] at hside
    split at hside
    · contradiction
    · exact h.waited other hside

/-- A reader that loads the published buffer loads what lists the registered regions. -/
theorem Consistent.load (h : Consistent trace s) (reader : Reader) (probe : Probe ρ α)
    (hentered : s.readers reader = .entered probe) :
    Consistent (.load reader :: trace)
      { s with readers := Function.update s.readers reader (.searching s.map.front probe probe) } where
  counted := by
    rw [countedIn_update s.readers reader _ (by rw [hentered]; rfl)]
    exact h.counted
  published := h.published
  known := h.known
  brought := h.brought
  agreed := h.agreed
  reading other side probe' rest hother := by
    simp only [Function.update_apply] at hother
    split at hother
    · rename_i hsame
      cases hother
      refine ⟨rfl, ?_⟩
      rw [beforeLoad, if_pos hsame.symm]
      exact h.published
    · rename_i hne
      rw [beforeLoad, if_neg (Ne.symm hne)]
      exact h.reading other side probe' rest hother
  waited other hside := by
    simp only [Function.update_apply] at hside
    split at hside
    · simp at hside
    · exact h.waited other hside

/-- A read leaves the answer that a reader is heading for as it is. -/
theorem Consistent.read (h : Consistent trace s) (reader : Reader) (side : Bool)
    (probe rest : Probe ρ α) (hsearching : s.readers reader = .searching side probe rest) :
    Consistent (.read reader :: trace)
      { s with
        readers := Function.update s.readers reader
          (.searching side probe (rest.after (s.map.buffer side))) } where
  counted := by
    rw [countedIn_update s.readers reader _ (by rw [hsearching]; rfl)]
    exact h.counted
  published := h.published
  known := h.known
  brought := h.brought
  agreed := h.agreed
  reading other side' probe' rest' hother := by
    simp only [Function.update_apply] at hother
    split at hother
    · rename_i hsame
      cases hother
      obtain ⟨heval, hlists⟩ := h.reading reader side probe rest hsearching
      rw [hsame]
      exact ⟨by rw [Probe.eval_after, heval], hlists⟩
    · exact h.reading other side' probe' rest' hother
  waited other hside := by
    simp only [Function.update_apply] at hside
    split at hside
    · exact h.waited reader (by rw [hsearching]; exact hside)
    · exact h.waited other hside

/-- A reader that has its answer may count itself out. -/
theorem Consistent.leave (h : Consistent trace s) (reader : Reader) (probe : Probe ρ α) (value : α)
    (hcounted : (s.readers reader).counted = true) :
    Consistent (.leave reader probe value :: trace)
      { s with map := s.map.leave, readers := Function.update s.readers reader .idle } where
  counted := by
    rw [countedIn_leave s.readers reader hcounted, ← h.counted]
    rfl
  published := h.published
  known := h.known
  brought := h.brought
  agreed := by
    have hagreed := h.agreed
    cases hmutex : s.mutex <;> rw [hmutex] at hagreed <;> exact hagreed
  reading other side probe' rest hother := by
    simp only [Function.update_apply] at hother
    split at hother
    · contradiction
    · exact h.reading other side probe' rest hother
  waited other hside := by
    simp only [Function.update_apply] at hside
    split at hside
    · contradiction
    · exact h.waited other hside

/-- A writer may do with the spare buffer what it wants while nobody is in it. -/
theorem Consistent.write (h : Consistent trace s) {trace' : List (Event Reader Writer ρ α)}
    {entries : List (RegionEntry ρ)} {mutex : Mutex Writer ρ}
    (hregistered : registered trace' = registered trace)
    (hinvolved : involved trace ⊆ involved trace')
    (hbefore : ∀ reader, beforeLoad reader trace' = beforeLoad reader trace)
    (hnobody : ∀ reader, (s.readers reader).side? ≠ some (!s.map.front))
    (hbrought : ∀ writer change phase, mutex = .held writer change phase →
      change.region ∈ involved trace')
    (hagrees : mutex.Agrees (s.map.setBuffer (!s.map.front) entries)) :
    Consistent trace' { s with map := s.map.setBuffer (!s.map.front) entries, mutex } where
  counted := by
    rw [lookups_setBuffer]
    exact h.counted
  published := by
    rw [hregistered, published_setBuffer]
    exact h.published
  known := by
    rw [hregistered]
    exact h.known.trans hinvolved
  brought := hbrought
  agreed := hagrees
  reading reader side probe rest hreader := by
    have hside : side ≠ !s.map.front := fun hside => hnobody reader (by rw [hreader, hside]; rfl)
    rw [buffer_setBuffer, if_neg hside, hbefore]
    exact h.reading reader side probe rest hreader
  waited reader hside := by
    rw [front_setBuffer] at hside
    exact absurd hside (hnobody reader)

/-- A writer may take the mutex, go on with it or release it while nobody is in the spare buffer. -/
theorem Consistent.setMutex (h : Consistent trace s) {trace' : List (Event Reader Writer ρ α)}
    {mutex : Mutex Writer ρ} (hregistered : registered trace' = registered trace)
    (hinvolved : involved trace ⊆ involved trace')
    (hbefore : ∀ reader, beforeLoad reader trace' = beforeLoad reader trace)
    (hnobody : ∀ reader, (s.readers reader).side? ≠ some (!s.map.front))
    (hbrought : ∀ writer change phase, mutex = .held writer change phase →
      change.region ∈ involved trace')
    (hagrees : mutex.Agrees s.map) : Consistent trace' { s with mutex } := by
  rw [← setBuffer_spare s.map] at hagrees
  have hwrite := h.write hregistered hinvolved hbefore hnobody hbrought hagrees
  rwa [setBuffer_spare] at hwrite

/-- Swapping the buffers publishes the change, and leaves readers in the other buffer at most. -/
theorem Consistent.swap (h : Consistent trace s) (hidentity : (involved trace).InjOn Region.identity)
    (writer : Writer) (change : Change ρ) (hheld : s.mutex = .held writer change .edited) :
    Consistent (.swap writer change :: trace)
      { s with map := s.map.swap, mutex := .held writer change .swapped } where
  counted := h.counted
  published := by
    have hagreed := h.agreed
    rw [hheld] at hagreed
    have hbrought := h.brought writer change _ hheld
    exact Change.lists (fun other hother hsame => hidentity (h.known hother) hbrought hsame)
      h.published hagreed.1 hagreed.2
  known := by
    have hbrought := h.brought writer change _ hheld
    exact (change.on_subset _).trans (Set.insert_subset hbrought h.known)
  brought writer' change' phase' hheld' := by
    cases hheld'
    exact h.brought writer change _ hheld
  agreed := by
    have hagreed := h.agreed
    rw [hheld] at hagreed
    refine ⟨hagreed.1, ?_⟩
    change change.apply (s.map.buffer (!!s.map.front)) = _
    rw [Bool.not_not]
    exact hagreed.2
  reading := h.reading
  waited _ _ := ⟨writer, change, rfl⟩

/-- Every step keeps the threads consistent. -/
theorem Consistent.step {event : Event Reader Writer ρ α} {t : Threads Reader Writer ρ α}
    (h : Consistent trace s) (hidentity : (involved trace).InjOn Region.identity)
    (hstep : Step s event t) : Consistent (event :: trace) t := by
  have hagreed := h.agreed
  cases hstep with
  | enter reader probe hidle => exact h.enter reader probe hidle
  | load reader probe hentered => exact h.load reader probe hentered
  | read reader side probe rest hsearching => exact h.read reader side probe rest hsearching
  | leave reader side probe value hdone => exact h.leave reader probe value (by rw [hdone]; rfl)
  | lock writer change hfree hadmitted =>
    rw [hfree] at hagreed
    refine h.setMutex rfl (Set.subset_insert _ _) (fun _ => rfl) (h.side?_ne_spare (by simp [hfree]))
      (fun writer' change' phase' hheld' => ?_) ⟨hadmitted, hagreed⟩
    cases hheld'
    exact Set.mem_insert _ _
  | edit writer change map hheld hedit =>
    rw [hheld] at hagreed
    obtain ⟨entries, happly, rfl⟩ := edit_eq_ok hedit
    refine h.write rfl subset_rfl (fun _ => rfl) (h.side?_ne_spare (by simp [hheld]))
      (fun writer' change' phase' hheld' => ?_) ⟨hagreed.1, ?_⟩
    · cases hheld'
      exact h.brought writer change _ hheld
    · change change.apply (s.map.setBuffer _ entries).published =
        .ok (s.map.setBuffer _ entries).spare
      rw [published_setBuffer, spare_setBuffer, ← hagreed.2]
      exact happly
  | refuse writer region hheld =>
    rw [hheld] at hagreed
    exact h.setMutex rfl subset_rfl (fun _ => rfl) (h.side?_ne_spare (by simp [hheld]))
      (fun _ _ _ hheld' => by simp at hheld') hagreed.2
  | swap writer change hheld => exact h.swap hidentity writer change hheld
  | drain writer change hheld hdrained =>
    rw [hheld] at hagreed
    -- The counter counts every reader in the spare buffer, whenever it came in.
    have hzero : countedIn s.readers = 0 := by
      rw [← h.counted]
      exact beq_iff_eq.mp hdrained
    refine h.setMutex rfl subset_rfl (fun _ => rfl) (fun reader => ?_)
      (fun writer' change' phase' hheld' => ?_) ⟨hagreed.1, hagreed.2⟩
    · rw [side?_eq_none_of_countedIn_eq_zero hzero reader]
      simp
    · cases hheld'
      exact h.brought writer change _ hheld
  | mirror writer change map hheld hedit =>
    rw [hheld] at hagreed
    obtain ⟨entries, happly, rfl⟩ := edit_eq_ok hedit
    refine h.write rfl subset_rfl (fun _ => rfl) (h.side?_ne_spare (by simp [hheld]))
      (fun writer' change' phase' hheld' => ?_) ⟨hagreed.1, ?_⟩
    · cases hheld'
      exact h.brought writer change _ hheld
    · change (s.map.setBuffer _ entries).spare = (s.map.setBuffer _ entries).published
      rw [published_setBuffer, spare_setBuffer]
      exact Except.ok.inj (happly.symm.trans hagreed.2)
  | unlock writer change hheld =>
    rw [hheld] at hagreed
    exact h.setMutex rfl subset_rfl (fun _ => rfl) (h.side?_ne_spare (by simp [hheld]))
      (fun _ _ _ hheld' => by simp at hheld') hagreed.2
  | breach writer change phase fault map hheld hphase hedit =>
    rw [hheld] at hagreed
    obtain ⟨rfl, violation, -, hviolated⟩ := edit_eq_error hedit
    rcases hphase with rfl | rfl
    · exact h.setMutex rfl subset_rfl (fun _ => rfl) (h.side?_ne_spare (by simp [hheld]))
        (fun _ _ _ hheld' => by simp at hheld') hagreed.2
    · -- The second edit is the first one again, on the same entries.
      rw [show change.apply s.map.spare = .ok s.map.published from hagreed.2] at hviolated
      contradiction

omit [Region ρ] [Fintype Reader] [DecidableEq Reader] in
/-- Writers that have come stay known. -/
theorem involved_subset_cons (event : Event Reader Writer ρ α)
    (trace : List (Event Reader Writer ρ α)) : involved trace ⊆ involved (event :: trace) := by
  cases event with
  | lock writer change => exact Set.subset_insert _ _
  | _ => exact subset_rfl

/-- Threads are consistent however they got where they are. -/
theorem Run.consistent (hrun : Run trace s) (hidentity : (involved trace).InjOn Region.identity) :
    Consistent trace s := by
  induction hrun with
  | start => exact consistent_start
  | @step trace s event t _ hstep ih =>
    have hbefore := hidentity.mono (involved_subset_cons event trace)
    exact (ih hbefore).step hbefore hstep

/-- Nobody is in a buffer while it is edited. -/
theorem Consistent.side?_ne_edits? (h : Consistent trace s) {event : Event Reader Writer ρ α}
    {t : Threads Reader Writer ρ α} (hstep : Step s event t) {side : Bool}
    (hedits : event.edits? s.map = some side) (reader : Reader) :
    (s.readers reader).side? ≠ some side := by
  cases hstep with
  | edit writer change map hheld hedit | mirror writer change map hheld hedit =>
    rw [← hedits]
    exact h.side?_ne_spare (by simp [hheld]) reader
  | breach writer change phase fault map hheld hphase hedit =>
    rw [← hedits]
    refine h.side?_ne_spare (fun writer' change' hwaiting => ?_) reader
    rw [hheld] at hwaiting
    rcases hphase with rfl | rfl <;> simp at hwaiting
  | _ => contradiction

/-- However readers and writers take turns: no reader is in a buffer while it is edited, and
nothing else changes a buffer; a lookup answers from the entries of the regions that were
registered when it loaded the published buffer, so that the search for an address answers with
the one of them that contains it; and whenever nobody has the mutex, both buffers hold the
entries of the registered regions. -/
theorem lookups_see_one_version (hrun : Run trace s)
    (hidentity : (involved trace).InjOn Region.identity) :
    (∀ event t, Step s event t → ∀ side,
      (event.edits? s.map = some side → ∀ reader, (s.readers reader).side? ≠ some side) ∧
      (event.edits? s.map ≠ some side → t.map.buffer side = s.map.buffer side)) ∧
    (∀ reader probe value t, Step s (.leave reader probe value) t →
      ∃ entries, RegionEntry.Lists entries (registered (beforeLoad reader trace)) ∧
        value = probe.eval entries) ∧
    (∀ reader pc finish value t, Step s (.leave reader (.find pc finish) value) t →
      ∃ found, value = finish found ∧
        ∀ region, found.map (·.region) = some region ↔
          region ∈ registered (beforeLoad reader trace) ∧ Region.Holds region pc) ∧
    (s.mutex = .free →
      s.map.left = s.map.right ∧ RegionEntry.Lists s.map.left (registered trace)) := by
  have h := hrun.consistent hidentity
  have hleave : ∀ reader probe value t, Step s (.leave reader probe value) t →
      ∃ entries, RegionEntry.Lists entries (registered (beforeLoad reader trace)) ∧
        value = probe.eval entries := by
    intro reader probe value t hstep
    cases hstep with
    | leave _ side _ _ hdone =>
      obtain ⟨heval, hlists⟩ := h.reading reader side probe _ hdone
      exact ⟨_, hlists, heval⟩
  refine ⟨fun event t hstep side => ⟨?_, ?_⟩, hleave, ?_, fun hfree => ?_⟩
  · exact h.side?_ne_edits? hstep
  · exact hstep.buffer_eq
  · intro reader pc finish value t hstep
    obtain ⟨entries, hlists, hvalue⟩ := hleave reader _ value t hstep
    rw [Probe.eval_find] at hvalue
    exact ⟨_, hvalue, fun region => hlists.find?_region pc region⟩
  · have hagreed := h.agreed
    rw [hfree] at hagreed
    have hleft := buffer_eq_published hagreed false
    have hright := buffer_eq_published hagreed true
    refine ⟨hleft.trans hright.symm, ?_⟩
    rw [show s.map.left = s.map.published from hleft]
    exact h.published

end Invariant

/-- A region that is nothing but a numbered stretch of addresses. -/
structure Stretch where
  /-- What tells the stretch apart from others. -/
  number : Nat
  /-- The address of the first byte. -/
  start : Nat
  /-- The address after the last byte. -/
  stop : Nat

instance : Region Stretch where
  start := Stretch.start
  stop := Stretch.stop
  identity := Stretch.number
  rangeAt _ _ := none

/-- While a writer waits, a lookup from before the swap misses the new region, and a later one
finds it. -/
theorem lookups_see_one_version_while_writer_waits :
    ∃ (trace : List (Event Bool Unit Stretch (Option Stretch))) (s : Threads Bool Unit Stretch _),
      Run trace s ∧ s.mutex = .held () (.insert ⟨1, 10, 20⟩) .swapped ∧
      (∃ t, Step s (.leave false (.region 15) none) t) ∧
      (∃ t, Step s (.leave true (.region 15) (some ⟨1, 10, 20⟩)) t) ∧
      (∀ value t, Step s (.leave false (.region 15) value) t → value = none) ∧
      ∀ value t, Step s (.leave true (.region 15) value) t → value = some ⟨1, 10, 20⟩ := by
  have hrun := (Run.start : Run [] ({} : Threads Bool Unit Stretch (Option Stretch)))
    |>.step (.enter false (.region 15) rfl) |>.step (.load false _ rfl)
    |>.step (.lock () (.insert ⟨1, 10, 20⟩) rfl (by change 10 < 20; decide))
    |>.step (.edit () (.insert ⟨1, 10, 20⟩) _ rfl rfl)
    |>.step (.swap () (.insert ⟨1, 10, 20⟩) rfl)
    |>.step (.enter true (.region 15) rfl) |>.step (.load true _ rfl)
    |>.step (.read false _ _ _ rfl) |>.step (.read false _ _ _ rfl)
    |>.step (.read false _ _ _ rfl)
    |>.step (.read true _ _ _ rfl) |>.step (.read true _ _ _ rfl)
    |>.step (.read true _ _ _ rfl)
  have hversion := lookups_see_one_version hrun (fun a ha b hb _ => by
    simp only [involved, Change.region, Set.mem_insert_iff, Set.mem_empty_iff_false, or_false]
      at ha hb
    rw [ha, hb])
  refine ⟨_, _, hrun, rfl, ⟨_, .leave false _ _ _ rfl⟩, ⟨_, .leave true _ _ _ rfl⟩, ?_, ?_⟩
  · intro value t hstep
    obtain ⟨found, rfl, hfound⟩ := hversion.2.2.1 false 15 _ value t hstep
    refine Option.eq_none_iff_forall_ne_some.mpr fun region hregion => ?_
    exact ((hfound region).mp hregion).1
  · intro value t hstep
    obtain ⟨found, rfl, hfound⟩ := hversion.2.2.1 true 15 _ value t hstep
    exact (hfound ⟨1, 10, 20⟩).mpr ⟨Set.mem_insert _ _, by decide, by decide⟩

end CompiledCode.RegionMap

import CompiledCode.Proofs.Dispatch

/-!
# What a refused jit entry leaves behind

Code that calls through a jit-entry slot relies on it that an entry, once there, is there for good. An
offer of another entry leaves the slot alone. An install of another one is a violation, but it is noticed
only after the slot has been written: what is refused has taken the place of the first entry. A slot thus
keeps its entry exactly until the first refused install, whatever else is called in between and however
those calls end.
-/

namespace CompiledCode

/-- A call that is to fill a jit-entry slot. -/
inductive JitCall where
  /-- The entry of a function is installed. -/
  | install (index target : Nat)
  /-- The entry of a function is offered to it. -/
  | offer (index target : Nat)
  deriving DecidableEq

namespace JitCall

open DispatchTables

/-- The tables that a call leaves behind, however it ends. -/
def leaves : JitCall → DispatchTables → DispatchTables
  | install index target, tables => ((setJitEntry index target).ending tables).2
  | offer index target, tables => ((setJitEntryIfEmpty index target).ending tables).2

/-- The tables that calls leave behind, one after the other and however each of them ends. -/
def leaveAll (calls : List JitCall) (tables : DispatchTables) : DispatchTables :=
  calls.foldl (fun tables call => call.leaves tables) tables

/-- Whether a call leaves an entry alone in a slot that holds it: any call but the install of another
one there. -/
def Spares (call : JitCall) (slot entry : Nat) : Prop :=
  ∀ target, call = install slot target → target = entry

variable {tables : DispatchTables} {call : JitCall} {calls : List JitCall} {slot entry : Nat}

/-- A call writes nothing but one slot, if that, and an offer writes an empty one alone. -/
theorem leaves_eq (call : JitCall) (tables : DispatchTables) :
    call.leaves tables = tables ∨
      ∃ index target, (call = install index target ∨
          call = offer index target ∧ tables.jit[index]? = some 0) ∧
        call.leaves tables = { tables with jit := tables.jit.set index target } := by
  cases call with
  | install index target =>
    have hafter := (setJitEntry_writes index target tables).ending rfl
    rw [leaves]
    split at hafter
    · obtain ⟨_, -, -, hafter⟩ := hafter
      exact .inr ⟨index, target, .inl rfl, hafter⟩
    · obtain ⟨-, -, hafter⟩ | ⟨_, -, -, -, hafter⟩ := hafter
      · exact .inl hafter
      · exact .inr ⟨index, target, .inl rfl, hafter⟩
  | offer index target =>
    have hafter := (setJitEntryIfEmpty_writes index target tables).ending rfl
    rw [leaves]
    split at hafter
    · obtain ⟨-, _, hslot, ⟨rfl, -, hafter⟩ | ⟨-, -, hafter⟩⟩ := hafter
      · exact .inr ⟨index, target, .inr ⟨rfl, hslot⟩, hafter⟩
      · exact .inl hafter
    · exact .inl hafter.2.2

/-- A call that spares an entry leaves it in its slot. -/
theorem Spares.kept (h : call.Spares slot entry) (hentry : entry ≠ 0)
    (hslot : tables.jit[slot]? = some entry) : (call.leaves tables).jit[slot]? = some entry := by
  obtain hsame | ⟨index, target, hcall, hset⟩ := call.leaves_eq tables
  · rw [hsame]
    exact hslot
  · rw [hset]
    dsimp only
    rw [List.getElem?_set]
    split
    · rename_i hindex
      subst hindex
      obtain rfl | ⟨rfl, hempty⟩ := hcall
      · rw [if_pos (List.getElem?_eq_some_iff.mp hslot).1, h target rfl]
      · exact absurd (Option.some.inj (hslot.symm.trans hempty)) hentry
    · exact hslot

/-- Calls that all spare an entry leave it in its slot. -/
theorem leaveAll_kept (hentry : entry ≠ 0) (hcalls : ∀ call ∈ calls, call.Spares slot entry)
    (hslot : tables.jit[slot]? = some entry) : (leaveAll calls tables).jit[slot]? = some entry := by
  induction calls generalizing tables with
  | nil => exact hslot
  | cons call rest ih =>
    obtain ⟨hcall, hrest⟩ := List.forall_mem_cons.mp hcalls
    exact ih hrest (hcall.kept hentry hslot)

/-- An install of another entry is violated, and leaves that entry in the slot. -/
theorem setJitEntry_of_taken {target : Nat} (hslot : tables.jit[slot]? = some entry) (hentry : entry ≠ 0)
    (hother : target ≠ entry) :
    setJitEntry slot target tables = .error (.violation (.jitEntryOverwritten slot))
      { tables with jit := tables.jit.set slot target } := by
  have htaken : ¬ (entry = 0 ∨ entry = target) := not_or.mpr ⟨hentry, hother.symm⟩
  have hends := setJitEntry_writes slot target tables
  cases hrun : setJitEntry slot target tables with
  | ok value after =>
    obtain ⟨previous, hprevious, hfree, -⟩ := hends.of_ok hrun
    obtain rfl := Option.some.inj (hslot.symm.trans hprevious)
    exact absurd hfree htaken
  | error fault after =>
    obtain ⟨hnone, -⟩ | ⟨previous, -, -, rfl, rfl⟩ := hends.of_error hrun
    · rw [hslot] at hnone
      contradiction
    · rfl

/-- An offer to a function with an entry answers the entry and leaves everything as it is. -/
theorem setJitEntryIfEmpty_of_taken {target : Nat} (hslot : tables.jit[slot]? = some entry)
    (hentry : entry ≠ 0) (htarget : target ≠ 0) :
    setJitEntryIfEmpty slot target tables = .ok entry tables := by
  have hends := setJitEntryIfEmpty_writes slot target tables
  cases hrun : setJitEntryIfEmpty slot target tables with
  | ok value after =>
    obtain ⟨-, previous, hprevious, hwritten⟩ := hends.of_ok hrun
    obtain rfl := Option.some.inj (hslot.symm.trans hprevious)
    obtain ⟨hempty, -⟩ | ⟨-, rfl, rfl⟩ := hwritten
    · exact absurd hempty hentry
    · rfl
  | error fault after =>
    obtain ⟨hzero | hnone, -⟩ := hends.of_error hrun
    · exact absurd hzero htarget
    · rw [hslot] at hnone
      contradiction

/-- An entry lasts until the install of another one is refused. Whatever calls fill jit-entry slots, and
however each of them ends, a slot that holds an entry goes on holding it after every one of them exactly
if none of them installs another entry there. Such an install is violated and leaves its own entry in
the slot, while an offer is answered with the entry that is there and leaves everything as it is. No call
changes anything but one slot. -/
theorem entries_last_until_one_is_refused (hslot : tables.jit[slot]? = some entry) (hentry : entry ≠ 0) :
    (∀ calls, (∀ earlier, earlier <+: calls → (leaveAll earlier tables).jit[slot]? = some entry) ↔
      ∀ target, install slot target ∈ calls → target = entry) ∧
    (∀ target, target ≠ entry →
      setJitEntry slot target tables = .error (.violation (.jitEntryOverwritten slot))
        { tables with jit := tables.jit.set slot target } ∧
      (target ≠ 0 → setJitEntryIfEmpty slot target tables = .ok entry tables)) ∧
    ∀ call : JitCall, call.leaves tables = tables ∨
      ∃ index target, (call = install index target ∨
          call = offer index target ∧ tables.jit[index]? = some 0) ∧
        call.leaves tables = { tables with jit := tables.jit.set index target } := by
  refine ⟨fun calls => ⟨fun hlasts target hin => ?_, fun hspared => ?_⟩, fun target hother =>
    ⟨setJitEntry_of_taken hslot hentry hother, setJitEntryIfEmpty_of_taken hslot hentry⟩,
    fun call => call.leaves_eq tables⟩
  · -- The slot is as the install leaves it right after the calls up to and including it.
    obtain ⟨before, after, rfl⟩ := List.append_of_mem hin
    refine Decidable.byContradiction fun hother => ?_
    have hbefore := hlasts before (List.prefix_append _ _)
    have hthen := hlasts (before ++ [install slot target]) ⟨after, by simp⟩
    rw [leaveAll, List.foldl_append, List.foldl_cons, List.foldl_nil, ← leaveAll, leaves, Op.ending,
      setJitEntry_of_taken hbefore hentry hother] at hthen
    dsimp only at hthen
    rw [List.getElem?_set_self (List.getElem?_eq_some_iff.mp hbefore).1] at hthen
    exact hother (Option.some.inj hthen)
  · rintro earlier ⟨rest, rfl⟩
    refine leaveAll_kept hentry (fun call hcall target heq => hspared target ?_) hslot
    exact List.mem_append_left rest (heq ▸ hcall)

/-- Tables in which one function has a jit entry and another one has none. -/
def oneEntry : DispatchTables where
  mode := .once
  tiering := []
  jit := [0, 0x1010]

/-- The entry of a function lasts through offers, an install for another function and one that is the
same. -/
theorem entries_last_until_one_is_refused_of_oneEntry :
    (∀ earlier, earlier <+: [offer 1 0x42, install 0 0x30, install 7 0x42, install 1 0x1010] →
      (leaveAll earlier oneEntry).jit[1]? = some 0x1010) ∧
    ¬ (∀ earlier, earlier <+: [offer 1 0x42, install 1 0x42, offer 1 0x1010] →
      (leaveAll earlier oneEntry).jit[1]? = some 0x1010) ∧
    setJitEntryIfEmpty 1 0x42 oneEntry = .ok 0x1010 oneEntry := by
  have hslot : oneEntry.jit[1]? = some 0x1010 := rfl
  obtain ⟨hlasts, hrefused, -⟩ := entries_last_until_one_is_refused hslot (by decide)
  refine ⟨(hlasts _).mpr (by simp), fun h => ?_, (hrefused 0x42 (by decide)).2 (by decide)⟩
  have hsame := (hlasts _).mp h 0x42 (by simp)
  contradiction

/-- An entry that is installed over another one is refused, and there for good. -/
theorem refused_entry_stays :
    oneEntry.jitEntry 1 = .ok (some 0x1010) ∧
      setJitEntry 1 0x42 oneEntry =
        .error (.violation (.jitEntryOverwritten 1)) { oneEntry with jit := [0, 0x42] } ∧
      (leaveAll [install 1 0x42] oneEntry).jitEntry 1 = .ok (some 0x42) :=
  ⟨rfl, rfl, rfl⟩

end JitCall

end CompiledCode

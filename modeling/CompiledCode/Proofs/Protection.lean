import CompiledCode.Memory.Basic
import Mathlib.Data.List.Basic

/-!
# What may be done with pages

The calls to the operating system tell what may be done with a page: what the last granted call
that concerns the page made of it. A fresh mapping can be written to, and a change of protection
does what it says.

Code is written between two calls, and between the two there is no other one. That is said of the
calls alone: each granted call that makes pages writable is followed at once by an attempt to make
the same pages executable.
-/

namespace CompiledCode

namespace SystemCall

/-- What a call makes of the pages that it concerns, if it is granted. -/
def gives (call : SystemCall) : Option Access :=
  if call.granted then
    match call.request with
    | .map => some .writable
    | .protect access => some access
  else none

/-- Whether a call concerns a page, as they have an address in common. -/
def concerns (call : SystemCall) (page : Nat) : Prop :=
  call.address < (page + 1) * Page.size ∧ page * Page.size < call.address + call.length

instance (call : SystemCall) (page : Nat) : Decidable (call.concerns page) :=
  inferInstanceAs (Decidable (_ ∧ _))

/-- A call concerns no page of an address that a border between pages keeps before the call. -/
theorem not_concerns_of_lt {call : SystemCall} {place border : Nat} (hborder : border % Page.size = 0)
    (hplace : place < border) (hcall : border ≤ call.address) :
    ¬call.concerns (place / Page.size) := by
  unfold concerns
  simp only [Page.size] at *
  omega

/-- A call concerns no page of an address that a border between pages keeps after the call. -/
theorem not_concerns_of_ge {call : SystemCall} {place border : Nat} (hborder : border % Page.size = 0)
    (hcall : call.address + call.length ≤ border) (hplace : border ≤ place) :
    ¬call.concerns (place / Page.size) := by
  unfold concerns
  simp only [Page.size] at *
  omega

/-- A call concerns the pages of its own addresses. -/
theorem concerns_of_mem {call : SystemCall} {place : Nat} (hstart : call.address ≤ place)
    (hstop : place < call.address + call.length) : call.concerns (place / Page.size) := by
  unfold concerns
  simp only [Page.size] at *
  omega

/-- Whether every granted call, of some that come newest first, that makes pages writable is followed
at once by an attempt to make the same pages executable. -/
def Restores (calls : List SystemCall) : Prop :=
  ∀ newer older address length,
    calls = newer ++ ⟨.protect .writable, true, address, length⟩ :: older →
      ∃ granted rest, newer = rest ++ [⟨.protect .executable, granted, address, length⟩]

/-- No calls leave nothing writable. -/
theorem restores_nil : Restores [] := by
  intro newer older address length h
  simp at h

/-- Neither does any call that does not make pages writable. -/
theorem Restores.cons {calls : List SystemCall} (h : Restores calls) {call : SystemCall}
    (hcall : ∀ address length, call ≠ ⟨.protect .writable, true, address, length⟩) :
    Restores (call :: calls) := by
  intro newer older address length hsplit
  cases newer with
  | nil => exact absurd (List.cons_eq_cons.mp hsplit).1 (hcall address length)
  | cons first newer =>
    obtain ⟨rfl, hrest⟩ := List.cons_eq_cons.mp hsplit
    obtain ⟨granted, rest, rfl⟩ := h newer older address length hrest
    exact ⟨granted, call :: rest, rfl⟩

/-- Pages that are made writable and executable again are left as they should be. -/
theorem Restores.flip {calls : List SystemCall} (h : Restores calls) (granted : Bool)
    (address length : Nat) :
    Restores (⟨.protect .executable, granted, address, length⟩ ::
      ⟨.protect .writable, true, address, length⟩ :: calls) := by
  intro newer older address' length' hsplit
  match newer with
  | [] => simp at hsplit
  | [first] =>
    simp only [List.cons_append, List.nil_append, List.cons.injEq, mk.injEq] at hsplit
    obtain ⟨rfl, ⟨-, -, rfl, rfl⟩, -⟩ := hsplit
    exact ⟨granted, [], rfl⟩
  | first :: second :: newer =>
    simp only [List.cons_append, List.cons.injEq] at hsplit
    obtain ⟨rfl, rfl, hrest⟩ := hsplit
    obtain ⟨granted', rest, rfl⟩ := h newer older address' length' hrest
    exact ⟨granted', _ :: _ :: rest, rfl⟩

/-- Calls one after the other leave nothing writable if neither do. -/
theorem Restores.append {later earlier : List SystemCall} (h : Restores later)
    (h' : Restores earlier) : Restores (later ++ earlier) := by
  intro newer older address length hsplit
  rcases List.append_eq_append_iff.mp hsplit with ⟨between, rfl, hearlier⟩ | ⟨between, hlater, hrest⟩
  · obtain ⟨granted, rest, rfl⟩ := h' between older address length hearlier
    exact ⟨granted, later ++ rest, (List.append_assoc ..).symm⟩
  · cases between with
    | nil =>
      obtain ⟨granted, rest, hnone⟩ := h' [] older address length hrest.symm
      simp at hnone
    | cons first between =>
      obtain ⟨rfl, -⟩ := List.cons_eq_cons.mp hrest
      exact h newer between address length hlater

end SystemCall

namespace Memory

/-- What may be done with a page, which is up to the last granted call that concerns it. -/
def accessTo (memory : Memory) (page : Nat) : Option Access :=
  memory.log.findSome? fun call => if call.concerns page then call.gives else none

/-- Whether the pages of a stretch of addresses are executable, and so not writable. -/
def Sealed (memory : Memory) (address length : Nat) : Prop :=
  ∀ place, address ≤ place → place < address + length →
    memory.accessTo (place / Page.size) = some .executable

/-- What may be done with pages depends on the calls alone. -/
theorem Sealed.of_log {before after : Memory} {address length : Nat} (h : before.Sealed address length)
    (hlog : after.log = before.log) : after.Sealed address length := by
  unfold Sealed accessTo at h ⊢
  rwa [hlog]

/-- An executable page stays so while no call that concerns it makes it writable. -/
theorem accessTo_of_append {before after : Memory} {calls : List SystemCall}
    (hlog : after.log = calls ++ before.log) {page : Nat}
    (hcalls : ∀ call ∈ calls, call.gives = some .writable → ¬call.concerns page)
    (hbefore : before.accessTo page = some .executable) :
    after.accessTo page = some .executable := by
  unfold accessTo at hbefore ⊢
  rw [hlog]
  clear hlog
  induction calls with
  | nil => exact hbefore
  | cons call calls ih =>
    obtain ⟨hcall, hrest⟩ := List.forall_mem_cons.mp hcalls
    rw [List.cons_append, List.findSome?_cons]
    by_cases hconcerns : call.concerns page
    · rw [if_pos hconcerns]
      cases hgives : call.gives with
      | none => exact ih hrest
      | some access =>
        cases access with
        | writable => exact absurd hconcerns (hcall hgives)
        | executable => rfl
    · rw [if_neg hconcerns]
      exact ih hrest

end Memory

end CompiledCode

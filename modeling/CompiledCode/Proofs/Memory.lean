import CompiledCode.Memory.Segment
import CompiledCode.Proofs.Op
import CompiledCode.Proofs.Protection
import Mathlib.Data.List.Pairwise

/-!
# What is mapped and what is claimed

Mappings never overlap, as a fresh one goes where no other is. Whatever is mapped stays mapped,
and what has been claimed of it stays claimed, so that two segments with memory have nothing in
common, and neither have two claims of one segment. What a claim holds never changes, as code is
written only to what has just been claimed, and for the same reason the pages of a claim are never
made writable again.

A segment without memory starts at an address that is not on a page, so that what is noted for
it is noted for no mapping.
-/

namespace CompiledCode

/-- Whether two stretches, each an address and a length, have nothing in common. -/
def Apart (a b : Nat × Nat) : Prop := a.1 + a.2 ≤ b.1 ∨ b.1 + b.2 ≤ a.1

instance : Std.Symm Apart where
  symm _ _ := Or.symm

namespace Memory

/-- Mappings that start on pages, are never empty, have nothing in common with each other, and lie where
addresses can be. -/
structure Sound (memory : Memory) : Prop where
  limited : memory.limit ≤ endOfAddresses
  aligned : ∀ mapping ∈ memory.mapped, Page.aligned mapping.1 = true
  nonempty : ∀ mapping ∈ memory.mapped, 0 < mapping.2
  apart : memory.mapped.Pairwise Apart

/-- Where code memory ends, what is mapped of it, how much of that is claimed, what it holds, and the
calls that led to that. -/
def claims (memory : Memory) :
    Nat × List (Nat × Nat) × (Nat → Nat) × (Nat → UInt8) × List SystemCall :=
  (memory.limit, memory.mapped, memory.inUse, memory.byteAt, memory.log)

/-- Whether an address is within what is claimed of a mapping. -/
def Claimed (memory : Memory) (place : Nat) : Prop :=
  ∃ mapping ∈ memory.mapped, ∃ i < memory.inUse mapping.1, i < mapping.2 ∧ place = mapping.1 + i

/-- Whether nothing is claimed of a stretch of addresses. -/
def Unclaimed (memory : Memory) (address bytes : Nat) : Prop :=
  ∀ place, memory.Claimed place → place < address ∨ address + bytes ≤ place

/-- Whether calls leave what is claimed as it is: they make no page of it writable, and leave no other
page writable on purpose. -/
structure Spared (memory : Memory) (calls : List SystemCall) : Prop where
  restores : SystemCall.Restores calls
  spared : ∀ call ∈ calls, call.gives = some .writable →
    ∀ place, memory.Claimed place → ¬call.concerns (place / Page.size)

/-- Code memory that is still sound, with nothing unmapped and no claim given back, changed or made
writable. -/
structure Keeps (before after : Memory) : Prop where
  sound : after.Sound
  mapped : ∀ mapping ∈ before.mapped, mapping ∈ after.mapped
  inUse : ∀ mapping ∈ before.mapped, before.inUse mapping.1 ≤ after.inUse mapping.1
  content : ∀ mapping ∈ before.mapped, ∀ i < before.inUse mapping.1, i < mapping.2 →
    after.byteAt (mapping.1 + i) = before.byteAt (mapping.1 + i)
  calls : ∃ calls, after.log = calls ++ before.log ∧ before.Spared calls

/-- Whether a segment has the memory that it needs. -/
def Backs (memory : Memory) (segment : Segment) : Prop :=
  segment.capacity = 0 ∨ (segment.base, segment.capacity) ∈ memory.mapped

/-- Whether a segment is none of the mappings and has nothing in common with any, and lies where
mappings can be. -/
structure Fresh (memory : Memory) (segment : Segment) : Prop where
  base_ne : ∀ mapping ∈ memory.mapped, mapping.1 ≠ segment.base
  apart : segment.capacity = 0 ∨
    ∀ mapping ∈ memory.mapped, Apart (segment.base, segment.capacity) mapping
  positive : 0 < segment.base
  below : segment.base + segment.capacity ≤ endOfAddresses

variable {memory before middle after : Memory}

theorem limit_of_claims (h : after.claims = before.claims) : after.limit = before.limit :=
  congrArg Prod.fst h

theorem mapped_of_claims (h : after.claims = before.claims) : after.mapped = before.mapped :=
  congrArg (·.2.1) h

theorem inUse_of_claims (h : after.claims = before.claims) : after.inUse = before.inUse :=
  congrArg (·.2.2.1) h

theorem byteAt_of_claims (h : after.claims = before.claims) : after.byteAt = before.byteAt :=
  congrArg (·.2.2.2.1) h

theorem log_of_claims (h : after.claims = before.claims) : after.log = before.log :=
  congrArg (·.2.2.2.2) h

/-- Memory without any mappings is sound. -/
theorem sound_of_mapped_eq_nil (hlimited : memory.limit ≤ endOfAddresses) (hnone : memory.mapped = []) :
    memory.Sound := by
  refine ⟨hlimited, ?_, ?_, ?_⟩
  · simp [hnone]
  · simp [hnone]
  · simp [hnone]

/-- Without any calls nothing is made writable. -/
theorem spared_nil (memory : Memory) : memory.Spared [] where
  restores := SystemCall.restores_nil
  spared := List.forall_mem_nil _

/-- Calls one after the other leave alone what each of them does. -/
theorem Spared.append {later earlier : List SystemCall} (h : memory.Spared later)
    (h' : memory.Spared earlier) : memory.Spared (later ++ earlier) where
  restores := h.restores.append h'.restores
  spared := List.forall_mem_append.mpr ⟨h.spared, h'.spared⟩

/-- A call leaves everything alone if it makes nothing writable. -/
theorem Spared.cons {calls : List SystemCall} (h : memory.Spared calls) {call : SystemCall}
    (hcall : call.gives ≠ some .writable) : memory.Spared (call :: calls) where
  restores := h.restores.cons fun _ _ hsame => hcall (hsame ▸ rfl)
  spared := List.forall_mem_cons.mpr ⟨fun hgives => absurd hgives hcall, h.spared⟩

/-- Memory with the same claims is as sound, and keeps them. -/
theorem Sound.keeps (hsound : before.Sound) (h : after.claims = before.claims) :
    before.Keeps after := by
  refine ⟨⟨?_, ?_, ?_, ?_⟩, ?_, ?_, ?_, [], log_of_claims h, spared_nil before⟩
  · rw [limit_of_claims h]
    exact hsound.limited
  · rw [mapped_of_claims h]
    exact hsound.aligned
  · rw [mapped_of_claims h]
    exact hsound.nonempty
  · rw [mapped_of_claims h]
    exact hsound.apart
  · rw [mapped_of_claims h]
    exact fun _ hin => hin
  · rw [inUse_of_claims h]
    exact fun _ _ => Nat.le_refl _
  · rw [byteAt_of_claims h]
    exact fun _ _ _ _ _ => rfl

/-- What is claimed stays claimed. -/
theorem Keeps.claimed (h : before.Keeps after) {place : Nat} (hclaimed : before.Claimed place) :
    after.Claimed place := by
  obtain ⟨mapping, hin, i, hinUse, hmapped, rfl⟩ := hclaimed
  exact ⟨mapping, h.mapped mapping hin, i, Nat.lt_of_lt_of_le hinUse (h.inUse mapping hin), hmapped,
    rfl⟩

/-- Calls that leave alone what is claimed by now leave alone what was claimed earlier. -/
theorem Spared.earlier {calls : List SystemCall} (h : after.Spared calls) (hkeeps : before.Keeps after) :
    before.Spared calls where
  restores := h.restores
  spared call hcall hgives place hclaimed :=
    h.spared call hcall hgives place (hkeeps.claimed hclaimed)

theorem Keeps.trans (h : before.Keeps middle) (h' : middle.Keeps after) : before.Keeps after where
  sound := h'.sound
  mapped mapping hin := h'.mapped mapping (h.mapped mapping hin)
  inUse mapping hin := Nat.le_trans (h.inUse mapping hin) (h'.inUse mapping (h.mapped mapping hin))
  content mapping hin i hclaimed hmapped :=
    (h'.content mapping (h.mapped mapping hin) i
      (Nat.lt_of_lt_of_le hclaimed (h.inUse mapping hin)) hmapped).trans
      (h.content mapping hin i hclaimed hmapped)
  calls := by
    obtain ⟨earlier, hearlier, hspared⟩ := h.calls
    obtain ⟨later, hlater, hspared'⟩ := h'.calls
    refine ⟨later ++ earlier, ?_, (hspared'.earlier h).append hspared⟩
    rw [hlater, hearlier, List.append_assoc]

/-- Memory with the same claims keeps as much. -/
theorem Keeps.of_claims (h : before.Keeps middle) (hclaims : after.claims = middle.claims) :
    before.Keeps after := h.trans (h.sound.keeps hclaims)

/-- A segment that has its memory keeps it. -/
theorem Backs.keeps {segment : Segment} (h : before.Backs segment) (hkeeps : before.Keeps after) :
    after.Backs segment :=
  h.imp_right (hkeeps.mapped _)

/-- Two mappings are either the same one or apart. -/
theorem Sound.eq_or_apart (hsound : memory.Sound) {a b : Nat × Nat} (ha : a ∈ memory.mapped)
    (hb : b ∈ memory.mapped) : a = b ∨ Apart a b := by
  by_cases h : a = b
  · exact .inl h
  · exact .inr (hsound.apart.forall ha hb h)

/-- Noting what is in use at an address that is no mapping gives no claim back. -/
theorem Keeps.setInUse (h : before.Keeps after) {base : Nat}
    (hbase : ∀ mapping ∈ before.mapped, mapping.1 ≠ base) (bytes : Nat) :
    before.Keeps (after.setInUse base bytes) where
  sound := { h.sound with }
  mapped := h.mapped
  inUse mapping hin := by
    change _ ≤ if mapping.1 = base then bytes else after.inUse mapping.1
    rw [if_neg (hbase mapping hin)]
    exact h.inUse mapping hin
  content := h.content
  calls := h.calls

/-- Writing to what was not claimed gives no claim back and changes none. -/
theorem Keeps.write (h : before.Keeps after) {address : Nat} {content : Bytes}
    (hclear : before.Unclaimed address content.length) :
    before.Keeps (after.write address content) where
  sound := { h.sound with }
  mapped := h.mapped
  inUse := h.inUse
  content mapping hin i hclaimed hmapped := by
    rw [← h.content mapping hin i hclaimed hmapped, byteAt_write]
    split
    · rename_i hle
      have hor := hclear _ ⟨mapping, hin, i, hclaimed, hmapped, rfl⟩
      have hpast : content.length ≤ mapping.1 + i - address := by omega
      rw [List.getElem?_eq_none hpast, Option.getD_none]
    · rfl
  calls := h.calls

/-- Calls that leave alone what was claimed earlier may be made. -/
theorem Keeps.withCalls (h : before.Keeps middle) {calls : List SystemCall}
    (hlog : after.log = calls ++ middle.log) (hspared : before.Spared calls)
    (hlimit : after.limit = middle.limit) (hmapped : after.mapped = middle.mapped)
    (hinUse : after.inUse = middle.inUse) (hcontent : after.byteAt = middle.byteAt) :
    before.Keeps after := by
  obtain ⟨earlier, hearlier, hspared'⟩ := h.calls
  refine ⟨⟨?_, ?_, ?_, ?_⟩, ?_, ?_, ?_, calls ++ earlier, ?_, hspared.append hspared'⟩
  · rw [hlimit]
    exact h.sound.limited
  · rw [hmapped]
    exact h.sound.aligned
  · rw [hmapped]
    exact h.sound.nonempty
  · rw [hmapped]
    exact h.sound.apart
  · rw [hmapped]
    exact h.mapped
  · rw [hinUse]
    exact h.inUse
  · rw [hcontent]
    exact h.content
  · rw [hlog, hearlier, List.append_assoc]

/-- Nothing was claimed of what is fresh. -/
theorem Fresh.unclaimed {segment : Segment} (h : memory.Fresh segment) {bytes : Nat}
    (hroom : bytes ≤ segment.capacity) : memory.Unclaimed segment.base bytes := by
  rintro _ ⟨mapping, hin, i, -, hi, rfl⟩
  rcases h.apart with hzero | hapart
  · omega
  · have hor := hapart mapping hin
    simp only [Apart] at hor
    omega

/-- Nothing was claimed of a segment after everything claimed of it. -/
theorem Sound.unclaimed (hsound : memory.Sound) {segment : Segment} (hbacks : memory.Backs segment)
    {offset bytes : Nat} (hoffset : offset = memory.inUse segment.base)
    (hroom : offset + bytes ≤ segment.capacity) : memory.Unclaimed (segment.base + offset) bytes := by
  rintro _ ⟨mapping, hin, i, hclaimed, hi, rfl⟩
  rcases hbacks with hzero | hmapped
  · omega
  · rcases hsound.eq_or_apart hmapped hin with hsame | hapart
    · rw [← hsame] at hclaimed ⊢
      dsimp only at hclaimed ⊢
      omega
    · simp only [Apart] at hapart
      omega

/-- What was unclaimed of a stretch is so of its front. -/
theorem Unclaimed.mono {address bytes fewer : Nat} (h : memory.Unclaimed address bytes)
    (hle : fewer ≤ bytes) : memory.Unclaimed address fewer :=
  fun place hclaimed => (h place hclaimed).imp_right fun hpast => by omega

/-- A flip of whole pages leaves alone what is claimed if nothing is claimed of them. -/
theorem spared_flip {address bytes : Nat} (haligned : address % Page.size = 0)
    (hwhole : bytes % Page.size = 0) (hunclaimed : memory.Unclaimed address bytes) (granted : Bool) :
    memory.Spared [⟨.protect .executable, granted, address, bytes⟩,
      ⟨.protect .writable, true, address, bytes⟩] where
  restores := SystemCall.restores_nil.flip granted address bytes
  spared := by
    have hstop : (address + bytes) % Page.size = 0 := by rw [Nat.add_mod, haligned, hwhole]; rfl
    have hwritable : ∀ place, memory.Claimed place →
        ¬SystemCall.concerns ⟨.protect .writable, true, address, bytes⟩ (place / Page.size) := by
      intro place hclaimed
      rcases hunclaimed place hclaimed with hbefore | hpast
      · exact SystemCall.not_concerns_of_lt haligned hbefore (Nat.le_refl _)
      · exact SystemCall.not_concerns_of_ge hstop (Nat.le_refl _) hpast
    intro call hcall hgives
    rcases List.mem_cons.mp hcall with rfl | hcall
    · cases granted <;> simp [SystemCall.gives] at hgives
    · rw [List.mem_singleton.mp hcall]
      exact hwritable

/-- What has been written can be read. -/
theorem read_write (memory : Memory) (address : Nat) (content : Bytes) :
    (memory.write address content).read address content.length = content := by
  apply List.ext_getElem
  · simp [read]
  · intro i hi hlt
    simp [read, byteAt_write, hlt]

/-- What is read depends on what memory holds there alone. -/
theorem read_congr {address length : Nat}
    (h : ∀ i < length, after.byteAt (address + i) = before.byteAt (address + i)) :
    after.read address length = before.read address length :=
  List.map_congr_left fun i hi => h i (List.mem_range.mp hi)

/-- Asking for room claims nothing, and is always answered. -/
theorem askRoom_claims : askRoom.Ensures memory (fun _ after => after.claims = memory.claims)
    (fun _ _ => False) := by
  rw [askRoom, Op.ensures_bind, Op.ensures_get, Op.ensures_bind, Op.ensures_set, Op.ensures_pure]
  rfl

/-- Growing a table claims nothing, and fails if at all. -/
theorem grow_claims (bytes : Nat) :
    (grow bytes).Ensures memory (fun _ after => after.claims = memory.claims)
      (fun fault after => fault.isViolation = false ∧ after.claims = memory.claims) := by
  rw [grow]
  split
  · rw [Op.ensures_pure]
  · refine askRoom_claims.bind (fun room after hafter => ?_) (fun _ _ h => h.elim)
    split
    · exact (Op.ensures_pure _).mpr hafter
    · exact (Op.ensures_fail _).mpr ⟨rfl, hafter⟩

/-- Code memory after one more call that changes the protection of pages. -/
def withCall (memory : Memory) (call : SystemCall) : Memory :=
  { memory with protectCalls := memory.protectCalls + 1, log := call :: memory.log }

/-- A change of protection is granted or refused, and recorded. -/
theorem protect_ensures (access : Access) (address length : Nat) :
    (protect access address length).Ensures memory
      (fun _ after => after = memory.withCall ⟨.protect access, true, address, length⟩)
      (fun fault after => fault.isViolation = false ∧
        after = memory.withCall ⟨.protect access, false, address, length⟩) := by
  rw [protect, Op.ensures_bind, Op.ensures_get, Op.ensures_bind, Op.ensures_set]
  cases hgranted : !memory.refusedProtects.contains (memory.protectCalls + 1) with
  | true =>
    rw [if_pos rfl]
    exact (Op.ensures_pure _).mpr rfl
  | false =>
    rw [if_neg Bool.false_ne_true]
    exact (Op.ensures_fail _).mpr ⟨rfl, rfl⟩

/-- A refused mapping is all that is recorded of it. -/
theorem Sound.keeps_refused (hsound : memory.Sound) {call : SystemCall} (hcall : call.granted = false)
    (hlog : after.log = call :: memory.log) (hlimit : after.limit = memory.limit)
    (hmapped : after.mapped = memory.mapped) (hinUse : after.inUse = memory.inUse)
    (hcontent : after.byteAt = memory.byteAt) : memory.Keeps after := by
  have hspared : memory.Spared [call] := (spared_nil memory).cons (by simp [SystemCall.gives, hcall])
  exact (hsound.keeps rfl).withCalls hlog hspared hlimit hmapped hinUse hcontent

/-- A mapping that is granted goes where no other one is; one that is refused claims nothing. -/
theorem map_ensures (hsound : memory.Sound) {length : Nat} (hlength : 0 < length) :
    (map length).Ensures memory
      (fun base after => memory.Keeps after ∧ (base, length) ∈ after.mapped ∧
        memory.Fresh { base, capacity := length } ∧ Page.aligned base = true)
      (fun fault after => fault.isViolation = false ∧ memory.Keeps after) := by
  rw [map, Op.ensures_bind, Op.ensures_get]
  split
  · rename_i hgranted
    simp only [grantsMap, Bool.and_eq_true, decide_eq_true_eq] at hgranted
    obtain ⟨⟨⟨⟨-, hpositive⟩, haligned⟩, hbelow⟩, hvacant⟩ := hgranted
    have hapart : ∀ mapping ∈ memory.mapped, Apart (memory.site, length) mapping := by
      intro mapping hin
      simpa [vacant, Apart] using List.all_eq_true.mp hvacant mapping hin
    have hspared : memory.Spared [⟨.map, true, memory.site, length⟩] := by
      refine ⟨SystemCall.restores_nil.cons (by simp), List.forall_mem_singleton.mpr fun _ => ?_⟩
      rintro _ ⟨mapping, hin, i, -, hi, rfl⟩
      rcases hapart mapping hin with hbefore | hpast
      · exact SystemCall.not_concerns_of_ge (beq_iff_eq.mp (hsound.aligned mapping hin)) hbefore
          (Nat.le_add_right _ _)
      · exact SystemCall.not_concerns_of_lt (beq_iff_eq.mp haligned)
          (Nat.lt_of_lt_of_le (Nat.add_lt_add_left hi _) hpast) (Nat.le_refl _)
    rw [Op.ensures_bind, Op.ensures_set, Op.ensures_pure]
    refine ⟨⟨⟨hsound.limited, ?_, ?_, ?_⟩, ?_, ?_, ?_, _, rfl, hspared⟩, List.mem_cons_self,
      ⟨?_, .inr hapart, hpositive, ?_⟩, haligned⟩
    · exact List.forall_mem_cons.mpr ⟨haligned, hsound.aligned⟩
    · exact List.forall_mem_cons.mpr ⟨hlength, hsound.nonempty⟩
    · exact List.pairwise_cons.mpr ⟨hapart, hsound.apart⟩
    · exact fun mapping hin => List.mem_cons_of_mem _ hin
    · exact fun _ _ => Nat.le_refl _
    · exact fun _ _ _ _ _ => rfl
    · intro mapping hin hbase
      have hsome := hsound.nonempty mapping hin
      have hor := hapart mapping hin
      simp only [Apart] at hor hbase
      omega
    · exact Nat.le_trans (Nat.le_add_right _ _) (Nat.le_trans hbelow hsound.limited)
  · rw [Op.ensures_bind, Op.ensures_set]
    exact (Op.ensures_fail _).mpr ⟨rfl, hsound.keeps_refused rfl rfl rfl rfl rfl rfl⟩

end Memory

namespace Segment

variable {memory : Memory} {segment : Segment}

/-- A segment without memory is none of the mappings. -/
theorem fresh_of_empty (hsound : memory.Sound) : memory.Fresh { base := emptyBase, capacity := 0 } where
  base_ne mapping hin hbase := by
    have haligned := hsound.aligned mapping hin
    rw [hbase] at haligned
    contradiction
  apart := .inl rfl
  positive := by decide
  below := by decide

section Rules

variable {onFault : Fault → Memory → Prop} {bytes : Nat}

/-- Pages are mapped for a segment, unless it needs none. -/
theorem obtain_ensures_of {onValue : Segment → Memory → Prop}
    (hrefused : ∀ cause, Page.roundUp bytes = .error cause → onFault (.failure { cause }) memory)
    (hnone : Page.roundUp bytes = .ok 0 → onValue { base := emptyBase, capacity := 0 } memory)
    (hmap : ∀ capacity, Page.roundUp bytes = .ok capacity → 0 < capacity →
      (Memory.map capacity).Ensures memory (fun base => onValue { base, capacity }) onFault) :
    (obtain bytes).Ensures memory onValue onFault := by
  rw [Segment.obtain, Op.ensures_bind, Op.ensures_ofAttempt]
  split
  case h_2 cause hrounding => exact hrefused cause hrounding
  rename_i capacity hcapacity
  split
  · rename_i hzero
    exact (Op.ensures_pure _).mpr (hnone (hzero ▸ hcapacity))
  · rename_i hsome
    exact (hmap capacity hcapacity (Nat.pos_of_ne_zero hsome)).bind
      (fun _ _ hvalue => (Op.ensures_pure _).mpr hvalue) (fun _ _ hfault => hfault)

/-- A piece is claimed behind those before it, if it fits. -/
theorem claim_ensures_of {onValue : Nat → Memory → Prop}
    (hfits : segment.fits memory bytes = true → onValue (segment.length memory)
      (memory.setInUse segment.base (segment.length memory + bytes)))
    (hfull : segment.fits memory bytes = false → onFault (.violation .overclaimed) memory) :
    (segment.claim bytes).Ensures memory onValue onFault := by
  rw [claim, Op.ensures_bind, Op.ensures_get, Op.ensures_bind, Op.ensures_require]
  split
  · rename_i hroom
    rw [Op.ensures_bind, Op.ensures_set, Op.ensures_pure]
    exact hfits hroom
  · rename_i hroom
    exact hfull (Bool.eq_false_iff.mpr hroom)

/-- Code is placed by getting a segment for it, all of which is noted as in use, and installing it at the
start of the segment. -/
theorem place_ensures_of {onValue : Segment → Memory → Prop} {onSegment : Nat → Segment → Memory → Prop}
    {code : Bytes} {plan : PatchPlan} {symbols : SymbolTable} {trapHandler : Option UInt64}
    (hrefused : ∀ cause, Page.roundUp code.length = .error cause → onFault (.failure { cause }) memory)
    (hobtain : ∀ capacity, Page.roundUp code.length = .ok capacity →
      (obtain capacity).Ensures memory (onSegment capacity) onFault)
    (hinstall : ∀ capacity segment after, Page.roundUp code.length = .ok capacity →
      onSegment capacity segment after →
      (segment.install 0 code plan symbols trapHandler).Ensures (after.setInUse segment.base capacity)
        (fun _ => onValue segment) onFault) :
    (place code plan symbols trapHandler).Ensures memory onValue onFault := by
  rw [place, Op.ensures_bind, Op.ensures_ofAttempt]
  split
  case h_2 cause hrounding => exact hrefused cause hrounding
  rename_i capacity hcapacity
  refine (hobtain capacity hcapacity).bind (fun segment after hafter => ?_) (fun _ _ hfault => hfault)
  rw [Op.ensures_bind, Op.ensures_modify]
  exact (hinstall capacity segment after hcapacity hafter).bind
    (fun _ _ hvalue => (Op.ensures_pure _).mpr hvalue) (fun _ _ hfault => hfault)

end Rules

/-- A segment that is obtained has memory that was free. -/
theorem obtain_ensures (hsound : memory.Sound) (bytes : Nat) :
    (obtain bytes).Ensures memory
      (fun segment after => memory.Keeps after ∧ after.Backs segment ∧ memory.Fresh segment ∧
        bytes ≤ segment.capacity)
      (fun fault after => fault.isViolation = false ∧ memory.Keeps after) := by
  refine obtain_ensures_of (fun _ _ => ⟨rfl, hsound.keeps rfl⟩) (fun hnone => ?_)
    fun capacity hcapacity hsome => ?_
  · exact ⟨hsound.keeps rfl, .inl rfl, fresh_of_empty hsound, (Page.roundUp_eq_ok hnone).2.1⟩
  · refine (Memory.map_ensures hsound hsome).mono (fun base after hafter => ?_)
      (fun _ _ hfault => hfault)
    obtain ⟨hkeeps, hin, hfresh, -⟩ := hafter
    exact ⟨hkeeps, .inr hin, hfresh, (Page.roundUp_eq_ok hcapacity).2.1⟩

/-- Reserving a segment keeps what there is, and has the memory, of which nothing is in use. -/
theorem reserve_ensures (hsound : memory.Sound) (bytes : Nat) :
    (reserve bytes).Ensures memory
      (fun segment after => memory.Keeps after ∧ after.Backs segment ∧ bytes ≤ segment.capacity ∧
        segment.length after = 0)
      (fun fault after => fault.isViolation = false ∧ memory.Keeps after) := by
  refine (obtain_ensures hsound bytes).bind (fun segment after hafter => ?_) (fun _ _ h => h)
  obtain ⟨hkeeps, hbacks, hfresh, hbytes⟩ := hafter
  rw [Op.ensures_bind, Op.ensures_modify, Op.ensures_pure]
  exact ⟨hkeeps.setInUse hfresh.base_ne 0, hbacks, hbytes, if_pos rfl⟩

/-- A claim starts where the claims before it end, and fits into the segment. -/
theorem claim_ensures (hsound : memory.Sound) (bytes : Nat) :
    (segment.claim bytes).Ensures memory
      (fun offset after => memory.Keeps after ∧ offset = memory.inUse segment.base ∧
        after.inUse segment.base = offset + bytes ∧ offset + bytes ≤ segment.capacity)
      (fun fault after => fault.ofMap = false ∧ segment.fits memory bytes = false ∧
        memory.Keeps after) := by
  refine claim_ensures_of (fun hfits => ?_) fun hfull => ⟨rfl, hfull, hsound.keeps rfl⟩
  rw [fits, Bool.and_eq_true, decide_eq_true_eq, decide_eq_true_eq, length] at hfits
  refine ⟨⟨{ hsound with }, fun _ hin => hin, ?_,
    fun _ _ _ _ _ => rfl, [], rfl, Memory.spared_nil memory⟩, rfl, ?_, ?_⟩
  · intro mapping _
    change _ ≤ if mapping.1 = segment.base then segment.length memory + bytes else _
    split
    · rename_i hbase
      rw [hbase]
      exact Nat.le_add_right _ _
    · exact Nat.le_refl _
  · change (if segment.base = segment.base then _ else _) = _
    rw [if_pos rfl]
  · change memory.inUse segment.base + bytes ≤ segment.capacity
    omega

/-- Whether a stretch of a segment starts on a page and is in use. -/
structure Takes (segment : Segment) (memory : Memory) (offset bytes : Nat) : Prop where
  aligned : Page.aligned offset = true
  capacity : offset + bytes ≤ segment.capacity
  inUse : offset + bytes ≤ segment.length memory

/-- Whether the protection of a stretch of a segment can be changed, as it starts on a page. -/
def Allows (segment : Segment) (offset bytes : Nat) : Prop :=
  offset + bytes ≤ segment.capacity ∧ Page.aligned offset = true

/-- The call that changes what may be done with a stretch of a segment, unless it has no pages. -/
def protection (segment : Segment) (access : Access) (granted : Bool) (offset bytes : Nat) :
    List SystemCall :=
  if bytes = 0 then [] else [⟨.protect access, granted, segment.base + offset, bytes⟩]

/-- A call that is refused makes nothing writable. -/
theorem spared_refused (memory : Memory) (access : Access) (offset bytes : Nat) :
    memory.Spared (segment.protection access false offset bytes) := by
  rw [protection]
  split
  · exact Memory.spared_nil memory
  · exact (Memory.spared_nil memory).cons (by simp [SystemCall.gives])

/-- Changing what may be done with a segment takes the call for it, which is granted or refused, and is
a violation where it is not allowed. -/
theorem protect_ensures (access : Access) (offset bytes : Nat) :
    (segment.protect access offset bytes).Ensures memory
      (fun _ after => segment.Allows offset bytes ∧ ∃ protectCalls, after =
        { memory with
          protectCalls, log := segment.protection access true offset bytes ++ memory.log })
      (fun fault after => fault.ofMap = false ∧ (¬segment.Allows offset bytes → after = memory) ∧
        (segment.Allows offset bytes → fault.isViolation = false ∧ ∃ protectCalls, after =
          { memory with
            protectCalls, log := segment.protection access false offset bytes ++ memory.log })) := by
  rw [Segment.protect, Op.ensures_bind, Op.ensures_require]
  split
  case isFalse houtside =>
    exact ⟨rfl, fun _ => rfl, fun h => absurd (decide_eq_true h.1) houtside⟩
  rename_i hroom
  rw [Op.ensures_bind, Op.ensures_require]
  split
  case isFalse hbetween => exact ⟨rfl, fun _ => rfl, fun h => absurd h.2 hbetween⟩
  rename_i haligned
  have hallows : segment.Allows offset bytes := ⟨of_decide_eq_true hroom, haligned⟩
  rw [protection, protection]
  by_cases hzero : bytes = 0
  · rw [if_pos hzero, if_pos hzero, if_pos hzero, Op.ensures_pure]
    exact ⟨hallows, memory.protectCalls, rfl⟩
  · rw [if_neg hzero, if_neg hzero, if_neg hzero]
    refine (Memory.protect_ensures _ _ _).mono (fun _ after hafter => ⟨hallows, _, hafter⟩)
      (fun fault after hafter => ?_)
    exact ⟨Fault.ofMap_of_not_isViolation hafter.1, fun h => absurd hallows h,
      fun _ => ⟨hafter.1, _, hafter.2⟩⟩

/-- Making pages of a segment writable and trying to make them executable again leaves alone what was
claimed before, if that is nothing of these pages. -/
theorem spared_protection {before : Memory} (hsound : memory.Sound) (hbacks : memory.Backs segment)
    {offset bytes pages : Nat} (hallows : segment.Allows offset pages)
    (hpages : Page.roundUp bytes = .ok pages)
    (hunclaimed : before.Unclaimed (segment.base + offset) pages) (granted : Bool) :
    before.Spared (segment.protection .executable granted offset pages ++
      segment.protection .writable true offset pages) := by
  rw [protection, protection]
  by_cases hzero : pages = 0
  · rw [if_pos hzero, if_pos hzero]
    exact Memory.spared_nil before
  · rw [if_neg hzero, if_neg hzero]
    rcases hbacks with hempty | hin
    · have hroom := hallows.1
      omega
    · have hbase : segment.base % Page.size = 0 := beq_iff_eq.mp (hsound.aligned _ hin)
      have hoffset : offset % Page.size = 0 := beq_iff_eq.mp hallows.2
      have haligned : (segment.base + offset) % Page.size = 0 := by
        rw [Nat.add_mod, hbase, hoffset]
        rfl
      exact Memory.spared_flip haligned (Page.roundUp_eq_ok hpages).1 hunclaimed granted

/-- Pages that have been made executable are sealed. -/
theorem sealed_protection {log : List SystemCall} {offset bytes pages : Nat}
    (hlog : memory.log = segment.protection .executable true offset pages ++ log)
    (hpages : Page.roundUp bytes = .ok pages) : memory.Sealed (segment.base + offset) bytes := by
  intro place hstart hstop
  have hle := (Page.roundUp_eq_ok hpages).2.1
  have hsome : pages ≠ 0 := by omega
  rw [protection, if_neg hsome] at hlog
  have hconcerns : SystemCall.concerns ⟨.protect .executable, true, segment.base + offset, pages⟩
      (place / Page.size) :=
    SystemCall.concerns_of_mem hstart (Nat.lt_of_lt_of_le hstop (Nat.add_le_add_left hle _))
  rw [Memory.accessTo, hlog, List.singleton_append, List.findSome?_cons, if_pos hconcerns]
  rfl

/-- Code memory that has code at an address, executable, and nothing else mapped or in use. -/
structure Filled (before after : Memory) (address : Nat) (code : Bytes) : Prop where
  mapped : after.mapped = before.mapped
  inUse : after.inUse = before.inUse
  read : after.read address code.length = code
  executable : after.Sealed address code.length

/-- Code that is installed where nothing was claimed is there as it is patched, and executable; a
failure leaves no more than some of it. -/
theorem install_ensures {before : Memory} (hkeeps : before.Keeps memory) (hbacks : memory.Backs segment)
    (offset : Nat) (code : Bytes)
    (hunclaimed : ∀ pages, Page.roundUp code.length = .ok pages → offset + pages ≤ segment.capacity →
      before.Unclaimed (segment.base + offset) pages)
    (plan : PatchPlan) (symbols : SymbolTable) (trapHandler : Option UInt64) :
    (segment.install offset code plan symbols trapHandler).Ensures memory
      (fun _ after => before.Keeps after ∧
        (plan.apply (segment.base + offset) symbols trapHandler code).stopped = none ∧
        Filled memory after (segment.base + offset)
          (plan.apply (segment.base + offset) symbols trapHandler code).code)
      (fun fault after => fault.ofMap = false ∧
        ((∀ pages, Page.roundUp code.length = .ok pages → segment.Takes memory offset pages) →
          fault.isViolation = false) ∧
        before.Keeps after) := by
  rw [install, Op.ensures_bind, Op.ensures_ofAttempt]
  split
  case h_2 => exact ⟨rfl, fun _ => rfl, hkeeps⟩
  rename_i pages hpages
  rw [Op.ensures_bind, Op.ensures_get, Op.ensures_bind, Op.ensures_require]
  split
  case isFalse hunused =>
    exact ⟨rfl, fun h => absurd (decide_eq_true (h pages hpages).inUse) hunused, hkeeps⟩
  refine (protect_ensures _ _ _).bind (fun _ writable hwritable => ?_) (fun fault after h => ?_)
  case refine_2 =>
    obtain ⟨hofMap, hforbidden, hrefused⟩ := h
    by_cases hallows : segment.Allows offset pages
    · obtain ⟨hcalm, protectCalls, rfl⟩ := hrefused hallows
      exact ⟨hofMap, fun _ => hcalm,
        hkeeps.withCalls rfl (spared_refused before .writable offset pages) rfl rfl rfl rfl⟩
    · obtain rfl := hforbidden hallows
      exact ⟨hofMap, fun h => absurd ⟨(h pages hpages).capacity, (h pages hpages).aligned⟩ hallows,
        hkeeps⟩
  obtain ⟨hallows, protectCalls, rfl⟩ := hwritable
  rw [Op.ensures_bind, Op.ensures_modify]
  let patched := plan.apply (segment.base + offset) symbols trapHandler code
  have hlength : patched.code.length = code.length := plan.length_apply ..
  have hclear := hunclaimed pages hpages hallows.1
  have hwritten : before.Keeps (memory.write (segment.base + offset) patched.code) :=
    hkeeps.write (hclear.mono (hlength ▸ (Page.roundUp_eq_ok hpages).2.1))
  -- However the second call ends, it comes right after the first one.
  have hflipped (granted : Bool) (after : Memory)
      (hlog : after.log = segment.protection .executable granted offset pages ++
        (segment.protection .writable true offset pages ++ memory.log))
      (hlimit : after.limit = memory.limit) (hmapped : after.mapped = memory.mapped)
      (hinUse : after.inUse = memory.inUse)
      (hcontent : after.byteAt = (memory.write (segment.base + offset) patched.code).byteAt) :
      before.Keeps after := by
    rw [← List.append_assoc] at hlog
    exact hwritten.withCalls hlog
      (spared_protection hkeeps.sound hbacks hallows hpages hclear granted) hlimit hmapped hinUse
        hcontent
  refine (protect_ensures _ _ _).bind (fun _ after hafter => ?_) (fun fault after hafter => ?_)
  case refine_2 =>
    obtain ⟨hofMap, -, hrefused⟩ := hafter
    obtain ⟨hcalm, protectCalls', rfl⟩ := hrefused hallows
    exact ⟨hofMap, fun _ => hcalm, hflipped false _ rfl rfl rfl rfl rfl⟩
  obtain ⟨-, protectCalls', rfl⟩ := hafter
  have hkept := hflipped true { memory.write (segment.base + offset) patched.code with
    protectCalls := protectCalls'
    log := segment.protection .executable true offset pages ++
      (segment.protection .writable true offset pages ++ memory.log) } rfl rfl rfl rfl rfl
  split
  · rename_i hstopped
    refine (Op.ensures_pure _).mpr ⟨hkept, hstopped, rfl, rfl, ?_, ?_⟩
    · exact Memory.read_write memory _ patched.code
    · exact sealed_protection rfl (hlength ▸ hpages)
  · exact (Op.ensures_fail _).mpr ⟨rfl, fun _ => rfl, hkept⟩

/-- Code that is placed has a segment of its own, where nothing was before, and all of it is in use and
executable. Whatever the code and its patches are, placing it fails if at all. -/
theorem place_ensures (hsound : memory.Sound) (code : Bytes) (plan : PatchPlan)
    (symbols : SymbolTable) (trapHandler : Option UInt64) :
    (place code plan symbols trapHandler).Ensures memory
      (fun segment after => memory.Keeps after ∧ after.Backs segment ∧ memory.Fresh segment ∧
        after.inUse segment.base ≤ segment.capacity ∧ code.length ≤ after.inUse segment.base ∧
        (plan.apply segment.base symbols trapHandler code).complete =
          .ok (after.read segment.base code.length) ∧
        after.Sealed segment.base code.length)
      (fun fault after => fault.isViolation = false ∧ memory.Keeps after) := by
  refine place_ensures_of (fun _ _ => ⟨rfl, hsound.keeps rfl⟩)
    (fun needed _ => obtain_ensures hsound needed) fun needed segment after hneeded hafter => ?_
  obtain ⟨hkeeps, hbacks, hfresh, hcapacity⟩ := hafter
  have hnoted := hkeeps.setInUse hfresh.base_ne needed
  have hinUse : (after.setInUse segment.base needed).inUse segment.base = needed := if_pos rfl
  have hcode : code.length ≤ needed := (Page.roundUp_eq_ok hneeded).2.1
  have htakes : ∀ pages, Page.roundUp code.length = .ok pages →
      segment.Takes (after.setInUse segment.base needed) 0 pages := by
    intro pages hpages
    obtain rfl := Except.ok.inj (hneeded.symm.trans hpages)
    rw [← Nat.zero_add needed] at hcapacity
    exact ⟨rfl, hcapacity, Nat.le_of_eq ((Nat.zero_add needed).trans hinUse.symm)⟩
  have hunclaimed : ∀ pages, Page.roundUp code.length = .ok pages → 0 + pages ≤ segment.capacity →
      memory.Unclaimed (segment.base + 0) pages :=
    fun pages _ hroom => hfresh.unclaimed (Nat.zero_add pages ▸ hroom)
  refine (install_ensures hnoted hbacks 0 code hunclaimed ..).mono (fun _ last hlast => ?_)
    (fun _ last hlast => ⟨hlast.2.1 htakes, hlast.2.2⟩)
  obtain ⟨hkept, hcomplete, hfilled⟩ := hlast
  rw [Nat.add_zero] at hcomplete hfilled
  have hlength := plan.length_apply segment.base symbols trapHandler code
  have hread := hfilled.read
  have hsealed := hfilled.executable
  rw [hlength] at hread hsealed
  have hbacked : last.Backs segment := by
    rw [Memory.Backs, hfilled.mapped]
    exact hbacks
  rw [Patched.complete, hcomplete, hread, hfilled.inUse, hinUse]
  exact ⟨hkept, hbacked, hfresh, hcapacity, hcode, rfl, hsealed⟩

end Segment

end CompiledCode

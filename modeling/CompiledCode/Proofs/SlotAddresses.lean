import CompiledCode.Proofs.Dispatch

/-!
# Slots of jit entries and their addresses

Compiled code calls a function through the address of its jit-entry slot, and that address is all that is
left when the function has to be named again. Subtracting the address of the table wraps around below it,
so that the order, the alignment and the index are asked for one by one. Together they say that the
address is so many slots above the table, and nothing else: the three tests come down to one equation
between natural numbers, in which nothing wraps around.
-/

namespace CompiledCode.DispatchTables

variable {tables : DispatchTables} {base address : UInt64} {index : Nat}

/-- Whether a jit-entry table at an address ends before addresses wrap around. -/
def FitsAt (tables : DispatchTables) (base : UInt64) : Prop :=
  base.toNat + 8 * tables.size ≤ UInt64.size

/-- The slots of a table follow each other without wrapping around. -/
theorem FitsAt.toNat_slot (hfits : tables.FitsAt base) (hindex : index < tables.size) :
    (base + 8 * UInt64.ofNat index).toNat = base.toNat + 8 * index := by
  unfold FitsAt at hfits
  have hbound : base.toNat + 8 * index < UInt64.size := by omega
  have hsmall : (UInt64.ofNat index).toNat = index := UInt64.toNat_ofNat_of_lt' (by omega)
  have height : (8 : UInt64).toNat = 8 := rfl
  have hproduct : 8 * index < UInt64.size := by omega
  rw [UInt64.toNat_add, UInt64.toNat_mul, hsmall, height, Nat.mod_eq_of_lt hproduct,
    Nat.mod_eq_of_lt hbound]

/-- A function that has a jit entry has a slot. -/
theorem HasJitEntry.lt_size (h : tables.HasJitEntry index) : index < tables.size := by
  obtain ⟨entry, hslot, -⟩ := hasJitEntry_iff.mp h
  exact (List.getElem?_eq_some_iff.mp hslot).1

/-- Functions that have a jit entry have the address of its slot, and no others do. -/
theorem slotAddress_eq_ok_iff :
    tables.slotAddress base index = .ok address ↔
      tables.HasJitEntry index ∧ address = base + 8 * UInt64.ofNat index := by
  rw [hasJitEntry_iff]
  unfold slotAddress
  cases tables.jit[index]? with
  | none => simp
  | some entry =>
    cases entry with
    | zero => simp
    | succ entry => simp [eq_comm]

/-- Whether the address of a slot is at some distance above the table, in slots. -/
theorem offset_slots_iff (hle : base ≤ address) (slots : Nat) :
    (address - base) % 8 = 0 ∧ ((address - base) / 8).toNat = slots ↔
      address.toNat = base.toNat + 8 * slots := by
  have hoffset : (address - base).toNat = address.toNat - base.toNat := UInt64.toNat_sub_of_le _ _ hle
  have hnat : base.toNat ≤ address.toNat := UInt64.le_iff_toNat_le.mp hle
  rw [← UInt64.toNat_inj, UInt64.toNat_mod, UInt64.toNat_div, hoffset]
  change (address.toNat - base.toNat) % 8 = 0 ∧ (address.toNat - base.toNat) / 8 = slots ↔ _
  omega

/-- The index that an address stands for is how many slots it is above the table. -/
theorem indexOfSlot_eq_ok_iff :
    tables.indexOfSlot base address = .ok index ↔
      index < tables.size ∧ address.toNat = base.toNat + 8 * index := by
  unfold indexOfSlot
  by_cases hslot : base ≤ address ∧ (address - base) % 8 = 0
  · have hplace : address.toNat = base.toNat + 8 * ((address - base) / 8).toNat :=
      (offset_slots_iff hslot.1 _).mp ⟨hslot.2, rfl⟩
    simp only [if_pos hslot]
    split
    · rw [Except.ok.injEq]
      omega
    · simp only [reduceCtorEq, false_iff, not_and]
      omega
  · simp only [if_neg hslot, reduceCtorEq, false_iff, not_and]
    intro _ hplace
    have hle : base ≤ address := UInt64.le_iff_toNat_le.mpr (by omega)
    exact hslot ⟨hle, ((offset_slots_iff hle index).mpr hplace).1⟩

/-- There is one way only in which an address can fail to stand for an index. -/
theorem indexOfSlot_eq_error {violation : Violation}
    (h : tables.indexOfSlot base address = .error violation) : violation = .notJitSlot := by
  unfold indexOfSlot at h
  simp only at h
  split at h
  · split at h
    · contradiction
    · exact (Except.error.inj h).symm
  · exact (Except.error.inj h).symm

/-- The address of the slot of a jit entry and the index of the function lead to each other. An address
stands for an index if and only if it is that many slots above the table, and the table has such a slot.
Any other address is refused: one below the table, between slots, or behind the last of them. -/
theorem slots_and_indices_are_inverse (hfits : tables.FitsAt base) :
    (∀ index, tables.HasJitEntry index → ∃ address, tables.slotAddress base index = .ok address ∧
      address.toNat = base.toNat + 8 * index ∧ tables.indexOfSlot base address = .ok index) ∧
    (∀ address index, tables.indexOfSlot base address = .ok index ↔
      index < tables.size ∧ address = base + 8 * UInt64.ofNat index) ∧
    (∀ address, (∀ index < tables.size, address ≠ base + 8 * UInt64.ofNat index) →
      tables.indexOfSlot base address = .error .notJitSlot) ∧
    ∀ index other address, tables.slotAddress base index = .ok address →
      tables.slotAddress base other = .ok address → index = other := by
  have hindex (address : UInt64) (index : Nat) : tables.indexOfSlot base address = .ok index ↔
      index < tables.size ∧ address = base + 8 * UInt64.ofNat index := by
    rw [indexOfSlot_eq_ok_iff]
    apply and_congr_right
    intro hsize
    rw [← hfits.toNat_slot hsize, UInt64.toNat_inj]
  have hback {index : Nat} {address : UInt64} (h : tables.slotAddress base index = .ok address) :
      tables.indexOfSlot base address = .ok index := by
    obtain ⟨hentry, haddress⟩ := slotAddress_eq_ok_iff.mp h
    exact (hindex address index).mpr ⟨hentry.lt_size, haddress⟩
  refine ⟨?_, hindex, ?_, ?_⟩
  · intro index hentry
    have hslot : tables.slotAddress base index = .ok (base + 8 * UInt64.ofNat index) :=
      slotAddress_eq_ok_iff.mpr ⟨hentry, rfl⟩
    exact ⟨_, hslot, hfits.toNat_slot hentry.lt_size, hback hslot⟩
  · intro address hforeign
    cases hanswer : tables.indexOfSlot base address with
    | ok index =>
      obtain ⟨hsize, haddress⟩ := (hindex address index).mp hanswer
      exact absurd haddress (hforeign index hsize)
    | error violation => rw [indexOfSlot_eq_error hanswer]
  · intro index other address h hother
    exact Except.ok.inj ((hback h).symm.trans (hback hother))

/-- The last slot of a table can be the last one that there is an address for; the address after it is
zero, and is refused. -/
theorem slots_and_indices_are_inverse_up_to_the_end :
    ∃ (tables : DispatchTables) (base : UInt64), tables.FitsAt base ∧ base + 8 * 2 = 0 ∧
      tables.HasJitEntry 1 ∧ tables.slotAddress base 1 = .ok 0xfffffffffffffff8 ∧
      tables.indexOfSlot base 0xfffffffffffffff8 = .ok 1 ∧
      tables.indexOfSlot base 0 = .error .notJitSlot := by
  let tables : DispatchTables := { mode := .once, tiering := [], jit := [0, 0x2020] }
  have hfits : tables.FitsAt 0xfffffffffffffff0 := by
    unfold FitsAt
    decide
  have hentry : tables.HasJitEntry 1 := ⟨0x2020, rfl⟩
  obtain ⟨hround, -, hforeign, -⟩ := slots_and_indices_are_inverse hfits
  obtain ⟨address, hslot, -, hindex⟩ := hround 1 hentry
  obtain rfl := Except.ok.inj hslot
  exact ⟨tables, _, hfits, rfl, hentry, rfl, hindex, hforeign 0 (by decide)⟩

end CompiledCode.DispatchTables

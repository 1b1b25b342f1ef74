/-!
# Byte sequences

Machine code is a finite sequence of bytes. Two operations matter for patching:
writing a number as little-endian bytes, and overwriting a stretch of a
sequence in place. Overwriting inside the sequence keeps its length and every
byte outside of the stretch.
-/

namespace CompiledCode

/-- A finite sequence of bytes. -/
abbrev Bytes := List UInt8

/-- The `width` low bytes of a number, least significant first. -/
def littleEndian : (width : Nat) → Nat → Bytes
  | 0, _ => []
  | width + 1, n => UInt8.ofNat (n % 256) :: littleEndian width (n / 256)

/-- The number that little-endian bytes spell. -/
def ofLittleEndian : Bytes → Nat
  | [] => 0
  | b :: rest => b.toNat + 256 * ofLittleEndian rest

@[simp] theorem length_littleEndian (width n : Nat) : (littleEndian width n).length = width := by
  induction width generalizing n with
  | zero => rfl
  | succ width ih => simp [littleEndian, ih]

/-- Reading back a written number keeps as many of its low bits. -/
theorem ofLittleEndian_littleEndian (width n : Nat) :
    ofLittleEndian (littleEndian width n) = n % (1 <<< (8 * width)) := by
  induction width generalizing n with
  | zero => simp [littleEndian, ofLittleEndian, Nat.mod_one]
  | succ width ih =>
    have hbyte : (UInt8.ofNat (n % 256)).toNat = n % 256 := by
      simp
    have hwidth : 1 <<< (8 * (width + 1)) = 256 * (1 <<< (8 * width)) := by
      rw [Nat.mul_succ, Nat.shiftLeft_add, Nat.shiftLeft_eq _ 8, Nat.mul_comm]
    rw [littleEndian, ofLittleEndian, ih, hbyte, hwidth, Nat.mod_mul]

/-- Replaces the bytes from `offset` on by `patch`, which is meant to fit. -/
def Bytes.overwrite (code : Bytes) (offset : Nat) (patch : Bytes) : Bytes :=
  code.take offset ++ patch ++ code.drop (offset + patch.length)

/-- Overwriting a stretch that fits keeps the length. -/
theorem Bytes.length_overwrite {code : Bytes} {offset : Nat} {patch : Bytes}
    (h : offset + patch.length ≤ code.length) :
    (code.overwrite offset patch).length = code.length := by
  simp only [Bytes.overwrite, List.length_append, List.length_take, List.length_drop]
  omega

/-- A byte after overwriting comes from the patch inside its stretch and from the code elsewhere. -/
theorem Bytes.getElem?_overwrite {code : Bytes} {offset : Nat} {patch : Bytes}
    (h : offset + patch.length ≤ code.length) (i : Nat) :
    (code.overwrite offset patch)[i]? =
      if offset ≤ i ∧ i < offset + patch.length then patch[i - offset]? else code[i]? := by
  have htake : (code.take offset).length = offset := by
    rw [List.length_take]
    omega
  simp only [Bytes.overwrite, List.append_assoc]
  by_cases hlow : i < offset
  · rw [List.getElem?_append_left (by omega), List.getElem?_take_of_lt hlow, if_neg (by omega)]
  · rw [List.getElem?_append_right (by omega), htake]
    by_cases hin : i < offset + patch.length
    · rw [List.getElem?_append_left (by omega), if_pos ⟨by omega, hin⟩]
    · rw [List.getElem?_append_right (by omega), List.getElem?_drop, if_neg (by omega)]
      congr 1
      omega

end CompiledCode

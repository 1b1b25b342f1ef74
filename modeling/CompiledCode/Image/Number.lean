import CompiledCode.Bytes
import CompiledCode.Image.Fault

/-!
# Numbers in images

A number is written in groups of seven bits, least significant first, one group
a byte; every byte but the last has its top bit set. A format bounds the number
of bytes and the last byte of a number that takes all of them. Longer forms of a
number than necessary are read as well.
-/

namespace CompiledCode

/-- How many bytes a number may take, and how large the last of them may be. -/
structure NumberFormat where
  /-- The number of bytes that the longest numbers take. -/
  width : Nat
  /-- The largest value of the last of so many bytes. -/
  top : Nat
  deriving DecidableEq, Repr

namespace NumberFormat

/-- Numbers below 2^32. -/
def word32 : NumberFormat := ⟨5, 0x0f⟩

/-- Numbers below 2^64. -/
def word64 : NumberFormat := ⟨10, 1⟩

/-- The first number that is too large for a format. -/
def limit (format : NumberFormat) : Nat := (format.top + 1) <<< (7 * (format.width - 1))

/-- The shortest form of a number that takes at most `width` bytes. -/
def writeWithin : (width : Nat) → Nat → Bytes
  | 0, _ => []
  | width + 1, n =>
    if n < 128 then [UInt8.ofNat n] else UInt8.ofNat (n % 128 + 128) :: writeWithin width (n / 128)

/-- Reads a number of at most `width` bytes, and answers it with the input after it. -/
def readWithin (top : Nat) : (width : Nat) → Bytes → Except WireFault (Nat × Bytes)
  | 0, _ => .error .endlessNumber
  | _ + 1, [] => .error .endOfInput
  | width + 1, byte :: input =>
    if byte.toNat < 128 then
      if width = 0 ∧ top < byte.toNat then .error .endlessNumber else .ok (byte.toNat, input)
    else
      match readWithin top width input with
      | .ok (high, rest) => .ok (byte.toNat - 128 + 128 * high, rest)
      | .error fault => .error fault

/-- The bytes of a number below the limit. -/
def write (format : NumberFormat) (n : Nat) : Bytes := writeWithin format.width n

/-- The number at the front of an input, and the input after it. -/
def read (format : NumberFormat) (input : Bytes) : Except WireFault (Nat × Bytes) :=
  readWithin format.top format.width input

example : word32.limit = UInt32.size ∧ word64.limit = UInt64.size := by decide

end NumberFormat

end CompiledCode

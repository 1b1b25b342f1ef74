import CompiledCode.Image.Number

/-!
# Codecs

A codec writes the values of a type as bytes and reads them back from the front
of its input. Codecs are put together from codecs of the parts, so that what is
written is the parts one after the other without any framing. Lists and texts
start with their length.

A codec also says which values its format can hold, as numbers are bounded.
-/

namespace CompiledCode

/-- A format for the values of a type. -/
structure Codec (α : Type) where
  /-- Which values the format can hold. -/
  admits : α → Prop
  /-- The bytes of a value. -/
  write : α → Bytes
  /-- The value at the front of an input, and the input after it. -/
  read : Bytes → Except WireFault (α × Bytes)

namespace Codec

variable {α β : Type}

/-- Numbers of a format. -/
def number (format : NumberFormat) : Codec Nat where
  admits n := n < format.limit
  write n := format.write n
  read input := format.read input

/-- Offsets, indices and other numbers below 2^32. -/
def word32 : Codec Nat := number .word32

/-- Sizes and lengths, which lie below 2^64. -/
def word64 : Codec Nat := number .word64

/-- Truth values: one byte that is zero or one. -/
def bool : Codec Bool where
  admits _ := True
  write value := [if value then 1 else 0]
  read
    | [] => .error .endOfInput
    | byte :: rest =>
      if byte = 0 then .ok (false, rest)
      else if byte = 1 then .ok (true, rest)
      else .error .truthValue

/-- Optional values: a byte that is zero, or one before the value. -/
def optional (codec : Codec α) : Codec (Option α) where
  admits value := ∀ x ∈ value, codec.admits x
  write
    | none => [0]
    | some value => 1 :: codec.write value
  read
    | [] => .error .endOfInput
    | byte :: input =>
      if byte = 0 then .ok (none, input)
      else if byte = 1 then
        match codec.read input with
        | .ok (value, rest) => .ok (some value, rest)
        | .error fault => .error fault
      else .error .optionMark

/-- One of a list of values, by its index. -/
def oneOf [DecidableEq α] (values : List α) : Codec α where
  admits value := value ∈ values ∧ word32.admits (values.idxOf value)
  write value := word32.write (values.idxOf value)
  read input :=
    match word32.read input with
    | .error fault => .error fault
    | .ok (index, rest) =>
      match values[index]? with
      | some value => .ok (value, rest)
      | none => .error .value

/-- Reads `count` values. -/
def readMany (read : Bytes → Except WireFault (α × Bytes)) :
    (count : Nat) → Bytes → Except WireFault (List α × Bytes)
  | 0, input => .ok ([], input)
  | count + 1, input =>
    match read input with
    | .error fault => .error fault
    | .ok (value, input) =>
      match readMany read count input with
      | .error fault => .error fault
      | .ok (values, rest) => .ok (value :: values, rest)

/-- Lists: the length and the values. -/
def list (codec : Codec α) : Codec (List α) where
  admits values := word64.admits values.length ∧ ∀ value ∈ values, codec.admits value
  write values := word64.write values.length ++ values.flatMap codec.write
  read input :=
    match word64.read input with
    | .error fault => .error fault
    | .ok (count, input) => readMany codec.read count input

/-- Bytes as they are, after their number. -/
def bytes : Codec Bytes where
  admits content := word64.admits content.length
  write content := word64.write content.length ++ content
  read input :=
    match word64.read input with
    | .error fault => .error fault
    | .ok (count, input) =>
      let content := input.take count
      if content.length < count then .error .endOfInput else .ok (content, input.drop count)

/-- Values that are stored as values of another type, from which they may fail to be made. -/
def stored (codec : Codec α) (parts : β → α) (make : α → Except WireFault β) : Codec β where
  admits value := codec.admits (parts value)
  write value := codec.write (parts value)
  read input :=
    match codec.read input with
    | .error fault => .error fault
    | .ok (stored, rest) =>
      match make stored with
      | .ok value => .ok (value, rest)
      | .error fault => .error fault

/-- Texts: their UTF-8 bytes after the number of these. -/
def text : Codec String :=
  bytes.stored (·.toUTF8.data.toList) fun content =>
    match String.fromUTF8? ⟨content.toArray⟩ with
    | some value => .ok value
    | none => .error .text

/-- Two values one after the other. -/
def pair (first : Codec α) (second : Codec β) : Codec (α × β) where
  admits value := first.admits value.1 ∧ second.admits value.2
  write value := first.write value.1 ++ second.write value.2
  read input :=
    match first.read input with
    | .error fault => .error fault
    | .ok (a, input) =>
      match second.read input with
      | .error fault => .error fault
      | .ok (b, rest) => .ok ((a, b), rest)

/-- Records that are made of values one after the other. -/
def record (codec : Codec α) (parts : β → α) (make : α → β) : Codec β :=
  codec.stored parts fun stored => .ok (make stored)

end Codec

end CompiledCode

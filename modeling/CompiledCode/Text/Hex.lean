/-!
# Hexadecimal text

Addresses and offsets are printed in lower-case hexadecimal without padding and
with a leading `0x`; bytes are printed as two digits each. Digits are read in
either case.
-/

namespace CompiledCode.Text

/-- One lower-case hexadecimal digit. -/
def hexDigit (n : Nat) : Char :=
  if n < 10 then Char.ofNat ('0'.toNat + n) else Char.ofNat ('a'.toNat + (n - 10))

/-- The shortest run of lower-case hexadecimal digits that denotes a number. -/
def hexDigits (n : Nat) : String :=
  String.ofList (Nat.toDigits 16 n)

/-- A number in hexadecimal with its `0x` mark. -/
def hex (n : Nat) : String :=
  "0x" ++ hexDigits n

/-- A number in hexadecimal with its `0x` mark and at least `width` digits. -/
def hexPadded (width n : Nat) : String :=
  let digits := hexDigits n
  "0x" ++ String.ofList (List.replicate (width - digits.length) '0') ++ digits

/-- A byte as exactly two hexadecimal digits. -/
def hexByte (b : UInt8) : String :=
  String.ofList [hexDigit (b.toNat / 16), hexDigit (b.toNat % 16)]

/-- Bytes as an unbroken run of hexadecimal digit pairs. -/
def hexBytes (bytes : List UInt8) : String :=
  String.join (bytes.map hexByte)

/-- The value of a hexadecimal digit, and zero for any other character. -/
def digitValue (c : Char) : Nat :=
  if '0' ≤ c ∧ c ≤ '9' then c.toNat - '0'.toNat
  else if 'a' ≤ c ∧ c ≤ 'f' then c.toNat - 'a'.toNat + 10
  else if 'A' ≤ c ∧ c ≤ 'F' then c.toNat - 'A'.toNat + 10
  else 0

/-- The number that hexadecimal digits denote. -/
def ofHex (digits : List Char) : Nat :=
  digits.foldl (fun n c => 16 * n + digitValue c) 0

/-- The bytes that pairs of hexadecimal digits denote. -/
def ofHexBytes : List Char → List UInt8
  | high :: low :: rest => UInt8.ofNat (16 * digitValue high + digitValue low) :: ofHexBytes rest
  | _ => []

end CompiledCode.Text

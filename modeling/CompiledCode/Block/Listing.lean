import CompiledCode.Block.Basic

/-!
# Listings of code

A listing prints each selected code range as a heading and its bytes in rows of
sixteen, each row with the address of its first byte.
-/

namespace CompiledCode

/-- The rows of a listing of bytes that start at an address. -/
def byteRows : (rows address : Nat) → Bytes → List String
  | 0, _, _ => []
  | rows + 1, address, bytes =>
    if bytes.isEmpty then []
    else
      let row := "  " ++ Text.hexPadded 8 address ++ ":" ++
        String.join ((bytes.take 16).map fun byte => " " ++ Text.hexByte byte)
      row :: byteRows rows (address + 16) (bytes.drop 16)

namespace Block

/-- The heading of a code range in a listing. -/
def rangeHeading (block : Block) (range : CodeRange) : String :=
  let func :=
    match range.func with
    | some func => " func[" ++ toString func ++ "]"
    | none => ""
  range.kind.name ++ func ++ " " ++ Text.hex (block.addressOf range.start) ++ ".." ++
    Text.hex (block.addressOf range.stop)

/-- The listing of one code range. -/
def listRange (block : Block) (memory : Memory) (range : CodeRange) :
    Except Violation (List String) := do
  let bytes ← block.segment.read memory range.start range.stop
  return block.rangeHeading range :: byteRows bytes.length (block.addressOf range.start) bytes

/-- The listing of every code range of the selected kinds. -/
def listing (block : Block) (memory : Memory) (kinds : RangeKinds) :
    Except Violation (List String) := do
  let selected := block.tables.ranges.filter fun range => kinds.contains range.kind
  let lists ← selected.mapM (block.listRange memory)
  return lists.flatten

end Block

end CompiledCode

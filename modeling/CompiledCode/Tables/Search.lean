import CompiledCode.Bisection
import CompiledCode.Tables.Basic

/-!
# Searching tables by offset

Code ranges are searched by the end of the range, call sites, stack maps and
trap sites by their exact offset, and unwind information by the last entry that
starts at or before the offset. Try notes nest, so that the first one that
covers the offset is the innermost one.
-/

namespace CompiledCode.CodeTables

/-- The code range that contains an offset, with its index. -/
def locateRange? (tables : CodeTables) (offset : Nat) : Option (Nat × CodeRange) :=
  let index := partitionPoint (fun range => range.stop ≤ offset) tables.ranges
  match tables.ranges[index]? with
  | some range => if range.contains offset then some (index, range) else none
  | none => none

/-- The code range that contains an offset. -/
def range? (tables : CodeTables) (offset : Nat) : Option CodeRange :=
  (tables.locateRange? offset).map (·.2)

/-- The call site that returns to an offset. -/
def callSite? (tables : CodeTables) (offset : Nat) : Option CallSite :=
  (findKey? (·.returnOffset) tables.callSites offset).map (·.2)

/-- The stack map for the return address at an offset. -/
def stackMap? (tables : CodeTables) (offset : Nat) : Option StackMap :=
  (findKey? (·.offset) tables.stackMaps offset).map (·.2)

/-- The trap site at an offset. -/
def trapSite? (tables : CodeTables) (offset : Nat) : Option TrapSite :=
  (findKey? (·.offset) tables.trapSites offset).map (·.2)

/-- The innermost try note that covers the return address at an offset. -/
def tryNote? (tables : CodeTables) (offset : Nat) : Option TryNote :=
  tables.tryNotes.find? (·.covers offset)

/-- The entry of the unwind table that holds at an offset. -/
def unwindAt? (tables : CodeTables) (offset : Nat) : Option UnwindInfo :=
  match searchKey (·.offset) tables.unwindInfos offset with
  | .found index => tables.unwindInfos[index]?
  | .vacant 0 => none
  | .vacant (index + 1) => tables.unwindInfos[index]?

/-- The unusual way to unwind at an offset, if unwinding is unusual there. -/
def unwindInfo? (tables : CodeTables) (offset : Nat) : Option UnwindInfo :=
  (tables.unwindAt? offset).filter (·.how ≠ .normal)

/-- The export of a function, with its index. -/
def export? (tables : CodeTables) (func : Nat) : Option (Nat × FuncExport) :=
  findKey? (·.func) tables.exports func

end CompiledCode.CodeTables

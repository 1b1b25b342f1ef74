import CompiledCode.Text.Hex

/-!
# Faults in metadata tables

A table can be out of the order that its searches rely on, or an entry can lie
outside of the code that the tables describe.
-/

namespace CompiledCode

open Text

/-- The tables whose order is checked. -/
inductive SortedTable where
  | codeRanges
  | callSites
  | trapSites
  | stackMaps
  | unwindInfos
  | exports
  deriving DecidableEq, Repr

/-- What is wrong when a table is out of order. -/
def SortedTable.complaint : SortedTable → String
  | codeRanges => "code ranges overlap or are unsorted"
  | callSites => "call sites are unsorted"
  | trapSites => "trap sites are unsorted"
  | stackMaps => "stack maps are unsorted"
  | unwindInfos => "unwind infos are unsorted"
  | exports => "function exports are unsorted"

/-- An entry that does not fit the code it describes. -/
inductive BoundsFault where
  /-- A code range leaves the code, or its tier entry leaves the range. -/
  | codeRange (start stop : Nat)
  /-- An offset lies past the end of the code. -/
  | offset (offset : Nat)
  /-- A try note ends before it starts. -/
  | tryNote (start : Nat)
  /-- The eager entry of a function names no code range. -/
  | entry (func : Nat)
  deriving DecidableEq, Repr

/-- The wording of a bounds fault. -/
def BoundsFault.message : BoundsFault → String
  | codeRange start stop => "code range " ++ hex start ++ ".." ++ hex stop ++ " out of bounds"
  | offset position => "offset " ++ hex position ++ " out of bounds"
  | tryNote start => "try note at " ++ hex start ++ " is inverted"
  | entry func => "entry of function " ++ toString func ++ " out of bounds"

end CompiledCode

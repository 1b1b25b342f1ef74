import CompiledCode.Bisection
import CompiledCode.Tables.Basic

/-!
# Checking tables

Searches rely on the order of the tables: code ranges may touch but not overlap,
and the other tables increase strictly. Tables that come from outside are also
checked against the length of the code that they describe, and tables of code that
is placed further on are moved there only if their offsets still fit into 32 bits.
-/

namespace CompiledCode.CodeTables

/-- The first table that is out of the order that searches rely on. -/
def disorder? (tables : CodeTables) : Option SortedTable :=
  if !chained (fun a b => a.stop ≤ b.start) tables.ranges then some .codeRanges
  else if !chained (fun a b => a.returnOffset < b.returnOffset) tables.callSites then
    some .callSites
  else if !chained (fun a b => a.offset < b.offset) tables.trapSites then some .trapSites
  else if !chained (fun a b => a.offset < b.offset) tables.stackMaps then some .stackMaps
  else if !chained (fun a b => a.offset < b.offset) tables.unwindInfos then some .unwindInfos
  else if !chained (fun a b => a.func < b.func) tables.exports then some .exports
  else none

/-- Every offset outside of the code ranges, in the order in which offsets are checked. -/
def looseOffsets (tables : CodeTables) : List Nat :=
  tables.callSites.map (·.returnOffset) ++ tables.trapSites.map (·.offset) ++
    tables.stackMaps.map (·.offset) ++ tables.unwindInfos.map (·.offset) ++
    tables.tryNotes.flatMap fun note => [note.start, note.stop, note.landingPad]

/-- Every offset into the code that the tables hold. -/
def codeOffsets (tables : CodeTables) : List Nat :=
  (tables.ranges.flatMap fun range => [range.start, range.stop, range.tierEntry]) ++
    tables.looseOffsets

/-- Whether an offset no longer fits into 32 bits when the code is placed `distance` further on. -/
def overflows (tables : CodeTables) (distance : Nat) : Bool :=
  0 < distance && tables.codeOffsets.any (UInt32.size ≤ · + distance)

/-- The tables of the same code placed `distance` further on, where no offset may overflow. -/
def checkedShift (tables : CodeTables) (distance : Nat) : Except Violation CodeTables :=
  if tables.overflows distance then .error .offsetOverflow else .ok (tables.shift distance)

/-- Tables that could be moved are those of the same code further on. -/
theorem eq_of_checkedShift {tables moved : CodeTables} {distance : Nat}
    (h : tables.checkedShift distance = .ok moved) : tables.shift distance = moved := by
  rw [checkedShift] at h
  split at h
  · contradiction
  · exact Except.ok.inj h

/-- Tables that could not be moved have an offset that overflows. -/
theorem overflows_of_checkedShift {tables : CodeTables} {distance : Nat} {violation : Violation}
    (h : tables.checkedShift distance = .error violation) :
    tables.overflows distance = true ∧ violation = .offsetOverflow := by
  rw [checkedShift] at h
  split at h
  · rename_i hoverflow
    exact ⟨hoverflow, (Except.error.inj h).symm⟩
  · contradiction

/-- Whether a code range and its tier entry lie in code of the given length. -/
def rangeFits (length : Nat) (range : CodeRange) : Bool :=
  range.start ≤ range.tierEntry && range.tierEntry ≤ range.stop && range.stop ≤ length

/-- Whether the eager entry of an export, if it has one, is one of `count` code ranges. -/
def eagerEntryFits (count : Nat) (entry : FuncExport) : Bool :=
  entry.eagerEntry.all (· < count)

/-- The first entry that does not fit code of the given length. -/
def boundsFault? (tables : CodeTables) (length : Nat) : Option BoundsFault :=
  match tables.ranges.find? (!rangeFits length ·) with
  | some range => some (.codeRange range.start range.stop)
  | none =>
    match tables.looseOffsets.find? (length < ·) with
    | some offset => some (.offset offset)
    | none =>
      match tables.tryNotes.find? (fun note => note.stop < note.start) with
      | some note => some (.tryNote note.start)
      | none =>
        match tables.exports.find? (!eagerEntryFits tables.ranges.length ·) with
        | some entry => some (.entry entry.func)
        | none => none

end CompiledCode.CodeTables

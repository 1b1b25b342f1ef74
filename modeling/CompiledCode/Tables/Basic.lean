import CompiledCode.Tables.Range

/-!
# Metadata tables

Next to machine code a compiler produces tables keyed by code offset. They
answer what a program counter stands for: which range it lies in, which call it
returns from, how it traps, which slots hold references, which handler covers
it and how its frame unwinds. All offsets count from the start of the segment
that holds the code.
-/

namespace CompiledCode

/-- How a call site reaches its callee. -/
inductive CallKind where
  /-- A direct call to a function of the module. -/
  | func
  /-- A call to an imported function. -/
  | imported
  /-- A call through a table. -/
  | indirect
  /-- A call to a runtime entry point. -/
  | symbolic
  deriving DecidableEq, Repr

namespace CallKind

/-- Every kind of call, in enumeration order. -/
def all : List CallKind := [func, imported, indirect, symbolic]

/-- The name of a kind of call. -/
def name : CallKind → String
  | func => "Func"
  | imported => "Import"
  | indirect => "Indirect"
  | symbolic => "Symbolic"

end CallKind

/-- A call, keyed by the return address that it pushes. -/
structure CallSite where
  /-- The offset of the instruction after the call. -/
  returnOffset : Nat
  /-- How the callee is reached. -/
  kind : CallKind
  /-- The bytecode offset of the instruction that calls. -/
  bytecode : Nat
  deriving DecidableEq, Repr

/-- Why an instruction traps. -/
inductive Trap where
  | unreachable
  | integerOverflow
  | badConversionToInteger
  | integerDivideByZero
  | outOfBounds
  | unalignedAccess
  | indirectCallToNull
  | indirectCallBadSig
  | nullPointerDereference
  | badCast
  | stackOverflow
  | checkInterrupt
  deriving DecidableEq, Repr

namespace Trap

/-- Every trap, in enumeration order. -/
def all : List Trap :=
  [unreachable, integerOverflow, badConversionToInteger, integerDivideByZero, outOfBounds,
    unalignedAccess, indirectCallToNull, indirectCallBadSig, nullPointerDereference, badCast,
    stackOverflow, checkInterrupt]

/-- The name of a trap. -/
def name : Trap → String
  | unreachable => "Unreachable"
  | integerOverflow => "IntegerOverflow"
  | badConversionToInteger => "BadConversionToInteger"
  | integerDivideByZero => "IntegerDivideByZero"
  | outOfBounds => "OutOfBounds"
  | unalignedAccess => "UnalignedAccess"
  | indirectCallToNull => "IndirectCallToNull"
  | indirectCallBadSig => "IndirectCallBadSig"
  | nullPointerDereference => "NullPointerDereference"
  | badCast => "BadCast"
  | stackOverflow => "StackOverflow"
  | checkInterrupt => "CheckInterrupt"

end Trap

/-- An instruction that may fault, and the trap that it then raises. -/
structure TrapSite where
  /-- The offset of the faulting instruction. -/
  offset : Nat
  /-- The trap raised. -/
  trap : Trap
  /-- The bytecode offset of the instruction that was compiled to it. -/
  bytecode : Nat
  deriving DecidableEq, Repr

/-- The references that are live in a frame at a return address. -/
structure StackMap where
  /-- The offset of the return address. -/
  offset : Nat
  /-- The size of the frame in words. -/
  frameWords : Nat
  /-- The word offsets of the slots that hold references. -/
  slots : List Nat
  deriving DecidableEq, Repr

/-- A piece of code covered by an exception handler. -/
structure TryNote where
  /-- The offset of the first instruction of the try body. -/
  start : Nat
  /-- The offset after the last instruction of the try body. -/
  stop : Nat
  /-- The offset of the handler. -/
  landingPad : Nat
  /-- The depth of the frame that the handler expects, in bytes. -/
  frameDepth : Nat
  deriving DecidableEq, Repr

/-- Whether a call that returns to `offset` was made from inside the try body: past its start and
up to its end. -/
def TryNote.covers (note : TryNote) (offset : Nat) : Bool :=
  note.start < offset && offset ≤ note.stop

/-- How to unwind a frame at an unusual place of its function. -/
inductive UnwindHow where
  /-- The frame is set up; unwind as usual. -/
  | normal
  /-- Neither frame pointer nor return address have been pushed yet. -/
  | restoreFpRa
  /-- The return address has been popped, the frame pointer has not. -/
  | restoreFp
  /-- Frame pointer and link register still belong to the caller. -/
  | useFpLr
  /-- The frame pointer still belongs to the caller. -/
  | useFp
  deriving DecidableEq, Repr

namespace UnwindHow

/-- Every way to unwind, in enumeration order. -/
def all : List UnwindHow := [normal, restoreFpRa, restoreFp, useFpLr, useFp]

/-- The name of a way to unwind. -/
def name : UnwindHow → String
  | normal => "Normal"
  | restoreFpRa => "RestoreFpRa"
  | restoreFp => "RestoreFp"
  | useFpLr => "UseFpLr"
  | useFp => "UseFp"

end UnwindHow

/-- How to unwind from an offset on, up to the next entry. -/
structure UnwindInfo where
  /-- The offset from which on the entry holds. -/
  offset : Nat
  /-- How to unwind there. -/
  how : UnwindHow
  deriving DecidableEq, Repr

/-- A function that may be called from outside of the module. -/
structure FuncExport where
  /-- The exported function. -/
  func : Nat
  /-- The index of its signature among the types of the module. -/
  type : Nat
  /-- The index of the code range with an interpreter entry that came along with the block. -/
  eagerEntry : Option Nat
  deriving DecidableEq, Repr

/-- The function indices from `first` up to `stop`. -/
structure FuncSpan where
  /-- The first function. -/
  first : Nat := 0
  /-- The index after the last function. -/
  stop : Nat := 0
  deriving DecidableEq, Repr

namespace FuncSpan

/-- Whether a function lies in the span. -/
def contains (span : FuncSpan) (func : Nat) : Bool :=
  span.first ≤ func && func < span.stop

/-- The number of functions in the span; an inverted span has none. -/
def size (span : FuncSpan) : Nat := span.stop - span.first

end FuncSpan

/-- The tables that describe one piece of machine code. -/
structure CodeTables where
  /-- The functions whose primary code range is here. -/
  funcs : FuncSpan := {}
  /-- The code ranges by offset, none overlapping another. -/
  ranges : List CodeRange := []
  /-- The call sites by return address. -/
  callSites : List CallSite := []
  /-- The trap sites by offset. -/
  trapSites : List TrapSite := []
  /-- The stack maps by offset. -/
  stackMaps : List StackMap := []
  /-- The try notes, innermost first. -/
  tryNotes : List TryNote := []
  /-- The unwind information by offset. -/
  unwindInfos : List UnwindInfo := []
  /-- The exported functions by index. -/
  exports : List FuncExport := []
  deriving DecidableEq, Repr

namespace CodeTables

/-- The tables of the same code placed `distance` further on; functions and exports stay. -/
def shift (tables : CodeTables) (distance : Nat) : CodeTables where
  funcs := tables.funcs
  ranges := tables.ranges.map (·.shift distance)
  callSites := tables.callSites.map fun site =>
    { site with returnOffset := site.returnOffset + distance }
  trapSites := tables.trapSites.map fun site => { site with offset := site.offset + distance }
  stackMaps := tables.stackMaps.map fun map => { map with offset := map.offset + distance }
  tryNotes := tables.tryNotes.map fun note =>
    { note with
      start := note.start + distance
      stop := note.stop + distance
      landingPad := note.landingPad + distance }
  unwindInfos := tables.unwindInfos.map fun info => { info with offset := info.offset + distance }
  exports := tables.exports

/-- The bytes that each table takes, by the name of the table. -/
def footprint (tables : CodeTables) : List (String × Nat) :=
  [("code_ranges", 24 * tables.ranges.length),
    ("call_sites", 12 * tables.callSites.length),
    ("trap_sites", 12 * tables.trapSites.length),
    ("stack_maps", 32 * tables.stackMaps.length + 4 * (tables.stackMaps.flatMap (·.slots)).length),
    ("try_notes", 16 * tables.tryNotes.length),
    ("unwind_infos", 8 * tables.unwindInfos.length),
    ("func_exports", 16 * tables.exports.length)]

end CodeTables

end CompiledCode

/-!
# Runtime symbols

Compiled code refers to a fixed set of runtime entry points by name. Their
order is part of the image format and decides in which order their patch sites
are filled.
-/

namespace CompiledCode

/-- A well-known runtime address that compiled code refers to by name. -/
inductive RuntimeSymbol where
  | handleTrap
  | handleThrow
  | interruptCheck
  | memoryGrow
  | memorySize
  | memoryFill
  | memoryCopy
  | memoryInit
  | dataDrop
  | tableGrow
  | tableGet
  | tableSet
  | tableFill
  | tableCopy
  | tableInit
  | elemDrop
  | refFunc
  | atomicWait32
  | atomicWait64
  | atomicNotify
  deriving DecidableEq, Repr

namespace RuntimeSymbol

/-- Every runtime symbol, in enumeration order. -/
def all : List RuntimeSymbol :=
  [handleTrap, handleThrow, interruptCheck, memoryGrow, memorySize, memoryFill, memoryCopy,
    memoryInit, dataDrop, tableGrow, tableGet, tableSet, tableFill, tableCopy, tableInit, elemDrop,
    refFunc, atomicWait32, atomicWait64, atomicNotify]

/-- The number of runtime symbols. -/
def count : Nat := all.length

/-- The place of a symbol in enumeration order. -/
def index (symbol : RuntimeSymbol) : Nat := symbol.ctorIdx

/-- The name that code generators and runtimes know a symbol by. -/
def name : RuntimeSymbol → String
  | handleTrap => "handle_trap"
  | handleThrow => "handle_throw"
  | interruptCheck => "interrupt_check"
  | memoryGrow => "memory_grow"
  | memorySize => "memory_size"
  | memoryFill => "memory_fill"
  | memoryCopy => "memory_copy"
  | memoryInit => "memory_init"
  | dataDrop => "data_drop"
  | tableGrow => "table_grow"
  | tableGet => "table_get"
  | tableSet => "table_set"
  | tableFill => "table_fill"
  | tableCopy => "table_copy"
  | tableInit => "table_init"
  | elemDrop => "elem_drop"
  | refFunc => "ref_func"
  | atomicWait32 => "atomic_wait32"
  | atomicWait64 => "atomic_wait64"
  | atomicNotify => "atomic_notify"

/-- The label of a symbol in listings of the whole enumeration. -/
def label : RuntimeSymbol → String
  | handleTrap => "HandleTrap"
  | handleThrow => "HandleThrow"
  | interruptCheck => "InterruptCheck"
  | memoryGrow => "MemoryGrow"
  | memorySize => "MemorySize"
  | memoryFill => "MemoryFill"
  | memoryCopy => "MemoryCopy"
  | memoryInit => "MemoryInit"
  | dataDrop => "DataDrop"
  | tableGrow => "TableGrow"
  | tableGet => "TableGet"
  | tableSet => "TableSet"
  | tableFill => "TableFill"
  | tableCopy => "TableCopy"
  | tableInit => "TableInit"
  | elemDrop => "ElemDrop"
  | refFunc => "RefFunc"
  | atomicWait32 => "AtomicWait32"
  | atomicWait64 => "AtomicWait64"
  | atomicNotify => "AtomicNotify"

/-- The symbol with a given name. -/
def ofName? (text : String) : Option RuntimeSymbol :=
  all.find? (·.name = text)

/-- Every symbol stands in the enumeration. -/
theorem mem_all (symbol : RuntimeSymbol) : symbol ∈ all := by
  cases symbol <;> decide

/-- A symbol stands at its index in the enumeration. -/
theorem getElem?_all_index (symbol : RuntimeSymbol) : all[symbol.index]? = some symbol := by
  cases symbol <;> rfl

end RuntimeSymbol

/-- The addresses of the runtime symbols that are defined. -/
abbrev SymbolTable := RuntimeSymbol → Option UInt64

namespace SymbolTable

/-- The table that defines no symbol. -/
def empty : SymbolTable := fun _ => none

/-- Gives a symbol an address, in place of any that it had. -/
def define (table : SymbolTable) (symbol : RuntimeSymbol) (address : UInt64) : SymbolTable :=
  fun other => if other = symbol then some address else table other

end SymbolTable

end CompiledCode

/-!
# Settings

The settings say how code is compiled, how large segments for entry stubs are
made, and whether labels for profilers are prepared at once. The compile mode says
whether a second tier may ever replace the first one, and with that whether the
tiering table exists at all.
-/

namespace CompiledCode

/-- How a module is compiled. -/
inductive CompileMode where
  /-- One tier is compiled and used for ever. -/
  | once
  /-- A baseline tier runs first, and an optimized tier may be installed later. -/
  | tiering
  deriving DecidableEq, Repr

namespace CompileMode

/-- Both modes, in enumeration order. -/
def all : List CompileMode := [once, tiering]

/-- The name of a mode in messages and settings. -/
def name : CompileMode → String
  | once => "Once"
  | tiering => "Tiering"

/-- The mode with a given name. -/
def ofName? (text : String) : Option CompileMode :=
  all.find? (·.name = text)

end CompileMode

/-- How compiled code is managed. -/
structure Settings where
  /-- The compile mode. -/
  mode : CompileMode := .once
  /-- The least capacity of a fresh segment for entry stubs, before rounding up to pages. -/
  stubSegmentSize : Nat := 64 * 1024
  /-- Whether branch targets are protected. -/
  branchProtection : Bool := false
  /-- Whether labels for profilers are made when code is created. -/
  profiling : Bool := false
  deriving DecidableEq, Repr

end CompiledCode

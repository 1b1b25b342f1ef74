import CompiledCode.Settings.Basic

/-!
# Reading settings from documents

A document is a tree of values, as text formats for configuration have them.
Settings are either an object, whose fields may be left out and whose unknown
fields are ignored, or a list of the values in order, of which the last ones may
be left out. A mode is its name, or an object with its name as the only key and
nothing as the value. Numbers are whole and fit into 64 bits.
-/

namespace CompiledCode

/-- A tree of values. -/
inductive Document where
  /-- The absence of a value. -/
  | null
  /-- A truth value. -/
  | bool (value : Bool)
  /-- A whole number. -/
  | integer (value : Int)
  /-- A number that is not written as a whole one. -/
  | fraction
  /-- A text. -/
  | text (value : String)
  /-- A list of values. -/
  | list (items : List Document)
  /-- Values under keys. -/
  | object (fields : List (String × Document))

namespace Document

/-- The truth value that a document is. -/
def asBool? : Document → Option Bool
  | bool value => some value
  | _ => none

/-- The size that a document is: a whole number that fits into 64 bits. -/
def asSize? : Document → Option Nat
  | integer value => if 0 ≤ value ∧ value < UInt64.size then some value.toNat else none
  | _ => none

/-- The compile mode that a document names. -/
def asMode? : Document → Option CompileMode
  | text value => CompileMode.ofName? value
  | object [(key, null)] => CompileMode.ofName? key
  | _ => none

end Document

namespace Settings

/-- The settings with one field set from a document; unknown fields are ignored. -/
def setField (settings : Settings) (key : String) (value : Document) : Option Settings :=
  if key = "mode" then value.asMode?.map ({ settings with mode := · })
  else if key = "lazy_stub_segment_size" then
    value.asSize?.map ({ settings with stubSegmentSize := · })
  else if key = "branch_protection" then
    value.asBool?.map ({ settings with branchProtection := · })
  else if key = "profiling" then value.asBool?.map ({ settings with profiling := · })
  else some settings

/-- The keys of the settings, in the order in which a list gives their values. -/
def keys : List String :=
  ["mode", "lazy_stub_segment_size", "branch_protection", "profiling"]

/-- The settings with fields set in turn. -/
def setFields : Settings → List (String × Document) → Option Settings
  | settings, [] => some settings
  | settings, (key, value) :: rest =>
    match settings.setField key value with
    | some next => next.setFields rest
    | none => none

/-- The settings that a document stands for. -/
def ofDocument? : Document → Option Settings
  | .object fields => ({} : Settings).setFields fields
  | .list items =>
    if items.length ≤ keys.length then ({} : Settings).setFields (keys.zip items) else none
  | _ => none

end Settings

end CompiledCode

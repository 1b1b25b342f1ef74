import CompiledCode.Block.Listing
import CompiledCode.ModuleCode.Query
import CompiledCode.Text.Quoted

/-!
# Reports about the code of a module

Labels for profilers, listings of code, and how much memory the metadata takes.
-/

namespace CompiledCode.ModuleCode

/-- The label of a function: its name, or one made up from its index. -/
def labelFor (code : ModuleCode) (func : Nat) : String :=
  let place := " (" ++ code.moduleName ++ ":" ++ toString func ++ ")"
  match code.funcNames[func]? with
  | some name =>
    if name.isEmpty then "wasm-function[" ++ toString func ++ "]" ++ place else name ++ place
  | none => "wasm-function[" ++ toString func ++ "]" ++ place

/-- Makes the labels for profilers, if they are wanted and have not been made. -/
def ensureLabels (code : ModuleCode) (wanted : Bool) : ModuleCode :=
  if wanted && code.labels.isEmpty then
    { code with labels := (List.range code.dispatch.size).map code.labelFor }
  else code

/-- The label of a function, or a question mark. -/
def label (code : ModuleCode) (func : Nat) : String := code.labels[func]?.getD "?"

/-- Adds an amount under a name. -/
def addAmount (amounts : List (String × Nat)) (entry : String × Nat) : List (String × Nat) :=
  match amounts with
  | [] => [entry]
  | (name, amount) :: rest =>
    if name = entry.1 then (name, amount + entry.2) :: rest
    else (name, amount) :: addAmount rest entry

/-- The bytes that code, metadata and tables take, by kind. -/
def analysis (code : ModuleCode) : List (String × Nat) :=
  let amounts := code.blocks.flatMap fun block => block.footprint ++ [("code", block.length)]
  let summed := amounts.foldl addAmount []
  summed ++ [("jump_tables", code.dispatch.footprint), ("func_imports", 4 * code.imports.length)]

/-- The executable memory reserved for the shared stubs and the first tier. -/
def tier1Memory (code : ModuleCode) : Nat :=
  code.sharedStubs.segment.capacity + code.tier1.segment.capacity

/-- The listing of a tier, restricted to the selected kinds of ranges. -/
def listing (code : ModuleCode) (memory : Memory) (tier : Tier) (kinds : RangeKinds) :
    Except Violation (List String) := do
  (← code.tierBlock tier).listing memory kinds

/-- One line that describes the code of a module. -/
def describe (code : ModuleCode) : Except Violation String := do
  let tier ← code.bestTier
  return "Code \x7b module_name: " ++ Text.quoted code.moduleName ++ ", best_tier: " ++
    tier.name ++ ", num_funcs: " ++ toString code.dispatch.size ++ ", .. \x7d"

end CompiledCode.ModuleCode

import CompiledCode.Fault

/-!
# Operations on a state

An operation changes a state and ends with a value or a fault. Whatever it did
to the state before a fault stays done, so the state that a failed or violated
operation leaves behind is part of its meaning, and undoing is always explicit.
-/

namespace CompiledCode

/-- An operation on a state, which keeps its effects even when it ends with a fault. -/
abbrev Op (σ α : Type) := EStateM Fault σ α

namespace Op

variable {σ τ α : Type}

/-- Ends with a failure that interrupts nothing yet. -/
def fail (cause : Cause) : Op σ α :=
  throw (.failure { cause })

/-- Ends with a violation. -/
def violate (violation : Violation) : Op σ α :=
  throw (.violation violation)

/-- Goes on only if the condition holds, and is violated otherwise. -/
def require (condition : Bool) (violation : Violation := .unstated) : Op σ Unit :=
  if condition then pure () else violate violation

/-- Takes over a result that may be a fault. -/
def ofExcept : Except Fault α → Op σ α
  | .ok value => pure value
  | .error fault => throw fault

/-- Takes over a result that may be a violation. -/
def ofChecked : Except Violation α → Op σ α
  | .ok value => pure value
  | .error violation => violate violation

/-- Takes over a result that may be a cause of failure. -/
def ofAttempt : Except Cause α → Op σ α
  | .ok value => pure value
  | .error cause => fail cause

/-- Notes on every failure of an operation what was being done. -/
def during (activity : Activity) (op : Op σ α) : Op σ α := fun s =>
  match op s with
  | .ok value t => .ok value t
  | .error (.failure failure) t => .error (.failure (failure.during activity)) t
  | .error (.violation violation) t => .error (.violation violation) t

/-- Runs `undo` when an operation fails, and then fails in the same way. -/
def onFailure (op : Op σ α) (undo : Op σ Unit) : Op σ α := fun s =>
  match op s with
  | .ok value t => .ok value t
  | .error (.failure failure) t => (undo *> throw (.failure failure)) t
  | .error (.violation violation) t => .error (.violation violation) t

/-- Runs an operation on a part of the state and puts the part back, however it ends. -/
def focus (view : σ → τ) (update : τ → σ → σ) (op : Op τ α) : Op σ α := fun s =>
  match op (view s) with
  | .ok value t => .ok value (update t s)
  | .error fault t => .error fault (update t s)

/-- Runs an operation and answers its value or its failure; a violation stays one. -/
def attempt (op : Op σ α) : Op σ (Except Failure α) := fun s =>
  match op s with
  | .ok value t => .ok (.ok value) t
  | .error (.failure failure) t => .ok (.error failure) t
  | .error (.violation violation) t => .error (.violation violation) t

/-- Runs an operation for several callers in turn, whether or not it fails for any of them. -/
def attempts (callers : Nat) (op : Op σ α) : Op σ (List (Except Failure α)) :=
  (List.replicate callers op).mapM attempt

/-- Runs an operation and answers how it failed, if it did. -/
def failure? (op : Op σ α) : Op σ (Option Failure) := do
  match ← attempt op with
  | .ok _ => return none
  | .error failure => return some failure

end Op

end CompiledCode

import CompiledCode.Op

/-!
# How an operation ends

An operation ensures one property of its value and the state it leaves behind, and another
one of its fault and the state that it leaves behind then. Both parts follow the way in
which an operation is put together, so that the properties of an operation come from those
of the operations it calls, and no proof runs more than one level of code.
-/

namespace CompiledCode

/-- Whether a map of regions refuses an edit by a violation. -/
def Violation.ofMap : Violation → Bool
  | emptyRegion => true
  | overlap .. => true
  | notRegistered => true
  | _ => false

/-- Whether an operation ended because a map of regions refused an edit. -/
def Fault.ofMap : Fault → Bool
  | failure _ => false
  | violation reason => reason.ofMap

/-- A failure is none of a map of regions. -/
theorem Fault.ofMap_of_not_isViolation {fault : Fault} (h : fault.isViolation = false) :
    fault.ofMap = false := by
  cases fault with
  | failure failure => rfl
  | violation violation => contradiction

namespace Op

variable {σ τ α β : Type}

/-- However an operation ends from a state, the property for that ending holds. -/
structure Ensures (op : Op σ α) (s : σ) (onValue : α → σ → Prop) (onFault : Fault → σ → Prop) :
    Prop where
  /-- A value comes with the property ensured for it. -/
  of_ok : ∀ {value t}, op s = .ok value t → onValue value t
  /-- A fault comes with the property ensured for it. -/
  of_error : ∀ {fault t}, op s = .error fault t → onFault fault t

section Rules

variable {op : Op σ α} {s t : σ} {onValue onValue' : α → σ → Prop}
  {onFault onFault' : Fault → σ → Prop}

/-- An operation that ends with a value ensures what holds of it. -/
theorem ensures_iff_of_ok {value : α} (h : op s = .ok value t) :
    op.Ensures s onValue onFault ↔ onValue value t := by
  refine ⟨fun hop => hop.of_ok h, fun hvalue => ⟨fun hok => ?_, fun herror => ?_⟩⟩
  · cases h.symm.trans hok
    exact hvalue
  · cases h.symm.trans herror

/-- An operation that ends with a fault ensures what holds of it. -/
theorem ensures_iff_of_error {fault : Fault} (h : op s = .error fault t) :
    op.Ensures s onValue onFault ↔ onFault fault t := by
  refine ⟨fun hop => hop.of_error h, fun hfault => ⟨fun hok => ?_, fun herror => ?_⟩⟩
  · cases h.symm.trans hok
  · cases h.symm.trans herror
    exact hfault

/-- An operation ensures whatever follows from what it ensures. -/
theorem Ensures.mono (h : op.Ensures s onValue onFault)
    (hvalue : ∀ value t, onValue value t → onValue' value t)
    (hfault : ∀ fault t, onFault fault t → onFault' fault t) :
    op.Ensures s onValue' onFault' :=
  ⟨fun hok => hvalue _ _ (h.of_ok hok), fun herror => hfault _ _ (h.of_error herror)⟩

/-- An operation ensures both of two things that it ensures. -/
theorem Ensures.and (h : op.Ensures s onValue onFault) (h' : op.Ensures s onValue' onFault') :
    op.Ensures s (fun value t => onValue value t ∧ onValue' value t)
      (fun fault t => onFault fault t ∧ onFault' fault t) :=
  ⟨fun hok => ⟨h.of_ok hok, h'.of_ok hok⟩, fun herror => ⟨h.of_error herror, h'.of_error herror⟩⟩

@[simp] theorem ensures_pure (value : α) :
    (pure value : Op σ α).Ensures s onValue onFault ↔ onValue value s := ensures_iff_of_ok rfl

@[simp] theorem ensures_throw (fault : Fault) :
    (throw fault : Op σ α).Ensures s onValue onFault ↔ onFault fault s := ensures_iff_of_error rfl

@[simp] theorem ensures_fail (cause : Cause) :
    (fail cause : Op σ α).Ensures s onValue onFault ↔ onFault (.failure { cause }) s :=
  ensures_iff_of_error rfl

@[simp] theorem ensures_violate (violation : Violation) :
    (violate violation : Op σ α).Ensures s onValue onFault ↔ onFault (.violation violation) s :=
  ensures_iff_of_error rfl

@[simp] theorem ensures_get {onValue : σ → σ → Prop} :
    (get : Op σ σ).Ensures s onValue onFault ↔ onValue s s := ensures_iff_of_ok rfl

@[simp] theorem ensures_set {onValue : PUnit → σ → Prop} (t : σ) :
    (set t : Op σ PUnit).Ensures s onValue onFault ↔ onValue ⟨⟩ t := ensures_iff_of_ok rfl

@[simp] theorem ensures_modify {onValue : PUnit → σ → Prop} (f : σ → σ) :
    (modify f : Op σ PUnit).Ensures s onValue onFault ↔ onValue ⟨⟩ (f s) := ensures_iff_of_ok rfl

/-- One operation after another ensures what the second ensures where the first ends. -/
theorem ensures_bind (op : Op σ β) (next : β → Op σ α) :
    (op >>= next).Ensures s onValue onFault ↔
      op.Ensures s (fun value t => (next value).Ensures t onValue onFault) onFault := by
  have hopen : (op >>= next) s = EStateM.bind op next s := rfl
  cases hop : op s with
  | ok value t =>
    have hrun : (op >>= next) s = next value t := by rw [hopen, EStateM.bind, hop]
    rw [ensures_iff_of_ok hop]
    exact ⟨fun h => ⟨fun hok => h.of_ok (hrun.trans hok), fun herror => h.of_error (hrun.trans herror)⟩,
      fun h => ⟨fun hok => h.of_ok (hrun.symm.trans hok),
        fun herror => h.of_error (hrun.symm.trans herror)⟩⟩
  | error fault t =>
    have hrun : (op >>= next) s = .error fault t := by rw [hopen, EStateM.bind, hop]
    rw [ensures_iff_of_error hop, ensures_iff_of_error hrun]

/-- A value that is worked on afterwards ensures what the result of that does. -/
theorem ensures_map (f : β → α) (op : Op σ β) :
    (f <$> op).Ensures s onValue onFault ↔ op.Ensures s (fun value => onValue (f value)) onFault := by
  have hopen : (f <$> op) s = EStateM.map f op s := rfl
  cases hop : op s with
  | ok value t =>
    have hrun : (f <$> op) s = .ok (f value) t := by rw [hopen, EStateM.map, hop]
    rw [ensures_iff_of_ok hop, ensures_iff_of_ok hrun]
  | error fault t =>
    have hrun : (f <$> op) s = .error fault t := by rw [hopen, EStateM.map, hop]
    rw [ensures_iff_of_error hop, ensures_iff_of_error hrun]

/-- What the first operation ensures is what the second may start from. -/
theorem Ensures.bind {op : Op σ β} {next : β → Op σ α} {onMiddle : β → σ → Prop}
    {onFirst : Fault → σ → Prop} (h : op.Ensures s onMiddle onFirst)
    (hnext : ∀ value t, onMiddle value t → (next value).Ensures t onValue onFault)
    (hfault : ∀ fault t, onFirst fault t → onFault fault t) :
    (op >>= next).Ensures s onValue onFault :=
  (ensures_bind op next).mpr (h.mono hnext hfault)

theorem ensures_require {onValue : Unit → σ → Prop} (condition : Bool) (violation : Violation) :
    (require condition violation).Ensures s onValue onFault ↔
      if condition then onValue () s else onFault (.violation violation) s := by
  cases condition with
  | true => exact ensures_pure ()
  | false => exact ensures_violate violation

theorem ensures_ofExcept (result : Except Fault α) :
    (ofExcept result : Op σ α).Ensures s onValue onFault ↔
      match result with
      | .ok value => onValue value s
      | .error fault => onFault fault s := by
  cases result with
  | ok value => exact ensures_pure value
  | error fault => exact ensures_throw fault

theorem ensures_ofChecked (result : Except Violation α) :
    (ofChecked result : Op σ α).Ensures s onValue onFault ↔
      match result with
      | .ok value => onValue value s
      | .error violation => onFault (.violation violation) s := by
  cases result with
  | ok value => exact ensures_pure value
  | error violation => exact ensures_violate violation

theorem ensures_ofAttempt (result : Except Cause α) :
    (ofAttempt result : Op σ α).Ensures s onValue onFault ↔
      match result with
      | .ok value => onValue value s
      | .error cause => onFault (.failure { cause }) s := by
  cases result with
  | ok value => exact ensures_pure value
  | error cause => exact ensures_fail cause

/-- Whatever every round of a loop keeps up, the loop keeps up. -/
theorem Ensures.forM {inputs : List β} {round : β → Op σ PUnit} {motive : σ → Prop}
    (h : ∀ input ∈ inputs, ∀ t, motive t →
      (round input).Ensures t (fun _ => motive) onFault)
    (hs : motive s) : (inputs.forM round).Ensures s (fun _ => motive) onFault := by
  induction inputs generalizing s with
  | nil => exact (ensures_pure _).mpr hs
  | cons input rest ih =>
    change (round input >>= fun _ => rest.forM round).Ensures s _ _
    refine (h input List.mem_cons_self s hs).bind (fun _ t ht => ?_) (fun _ _ ht => ht)
    exact ih (fun later hlater => h later (List.mem_cons_of_mem input hlater)) ht

/-- What rounds of a loop add up to, given the inputs that they are for, the loop comes to in the end, or
up to the input where it stops. -/
theorem Ensures.forM_stops {inputs : List β} {round : β → Op σ PUnit} {motive : List β → σ → Prop}
    (stopped : List β → β → Fault → σ → Prop)
    (h : ∀ done input t, motive done t →
      (round input).Ensures t (fun _ => motive (done ++ [input])) (stopped done input))
    (hs : motive [] s) :
    (inputs.forM round).Ensures s (fun _ => motive inputs) fun fault t =>
      ∃ done input rest, inputs = done ++ input :: rest ∧ stopped done input fault t := by
  suffices hrest : ∀ rest done s, inputs = done ++ rest → motive done s →
      (rest.forM round).Ensures s (fun _ => motive inputs) fun fault t =>
        ∃ done input rest, inputs = done ++ input :: rest ∧ stopped done input fault t from
    hrest inputs [] s rfl hs
  clear hs
  intro rest
  induction rest with
  | nil =>
    intro done s hdone hs
    rw [List.append_nil] at hdone
    exact (ensures_pure _).mpr (hdone ▸ hs)
  | cons input rest ih =>
    intro done s hdone hs
    change (round input >>= fun _ => rest.forM round).Ensures s _ _
    refine (h done input s hs).bind (fun _ t ht => ih _ t ?_ ht)
      (fun _ _ ht => ⟨done, input, rest, hdone, ht⟩)
    rw [hdone, List.append_assoc, List.singleton_append]

/-- What rounds of a loop add up to, given the inputs that they are for, the loop comes to in the end. -/
theorem Ensures.forM_upTo {inputs : List β} {round : β → Op σ PUnit} {motive : List β → σ → Prop}
    (h : ∀ done input t, motive done t →
      (round input).Ensures t (fun _ => motive (done ++ [input])) onFault)
    (hs : motive [] s) : (inputs.forM round).Ensures s (fun _ => motive inputs) onFault :=
  (forM_stops (fun _ _ => onFault) h hs).mono (fun _ _ ht => ht)
    fun _ _ ⟨_, _, _, _, ht⟩ => ht

/-- Noting an activity leaves values and violations alone. -/
theorem ensures_during (activity : Activity) (op : Op σ α) :
    (during activity op).Ensures s onValue onFault ↔
      op.Ensures s onValue fun fault t =>
        match fault with
        | .failure failure => onFault (.failure (failure.during activity)) t
        | .violation violation => onFault (.violation violation) t := by
  cases hop : op s with
  | ok value t =>
    rw [ensures_iff_of_ok hop]
    exact ensures_iff_of_ok (by rw [during, hop])
  | error fault t =>
    rw [ensures_iff_of_error hop]
    cases fault with
    | failure failure => exact ensures_iff_of_error (by rw [during, hop])
    | violation violation => exact ensures_iff_of_error (by rw [during, hop])

/-- Noting an activity leaves alone what is said of every failure alike. -/
theorem Ensures.during_of {activity : Activity} (h : op.Ensures s onValue onFault)
    (hfailure : ∀ failure t, onFault (.failure failure) t →
      onFault (.failure (failure.during activity)) t) :
    (during activity op).Ensures s onValue onFault := by
  refine (ensures_during activity op).mpr (h.mono (fun _ _ hvalue => hvalue) fun fault t hend => ?_)
  cases fault with
  | failure failure => exact hfailure failure t hend
  | violation violation => exact hend

/-- Noting an activity leaves alone what is said of every fault alike. -/
theorem Ensures.during {activity : Activity} {onEnd : σ → Prop}
    (h : op.Ensures s onValue fun _ => onEnd) :
    (during activity op).Ensures s onValue fun _ => onEnd :=
  h.during_of fun _ _ hend => hend

/-- Undoing happens after failures alone, and its own fault would come first. -/
theorem ensures_onFailure (op : Op σ α) (undo : Op σ Unit) :
    (onFailure op undo).Ensures s onValue onFault ↔
      op.Ensures s onValue fun fault t =>
        match fault with
        | .failure failure => undo.Ensures t (fun _ u => onFault (.failure failure) u) onFault
        | .violation violation => onFault (.violation violation) t := by
  cases hop : op s with
  | ok value t =>
    rw [ensures_iff_of_ok hop]
    exact ensures_iff_of_ok (by rw [onFailure, hop])
  | error fault t =>
    rw [ensures_iff_of_error hop]
    cases fault with
    | failure failure =>
      have hrun : onFailure op undo s = match undo t with
          | .ok _ u => .error (.failure failure) u
          | .error fault u => .error fault u := by
        rw [onFailure, hop]
        change EStateM.seqRight undo (fun _ => EStateM.throw (.failure failure)) t = _
        rw [EStateM.seqRight]
        cases undo t <;> rfl
      cases hundo : undo t with
      | ok value u =>
        rw [hundo] at hrun
        have hend : undo.Ensures t (fun _ u => onFault (.failure failure) u) onFault ↔
            onFault (.failure failure) u := ensures_iff_of_ok hundo
        exact (ensures_iff_of_error hrun).trans hend.symm
      | error fault u =>
        rw [hundo] at hrun
        exact (ensures_iff_of_error hrun).trans (ensures_iff_of_error hundo).symm
    | violation violation => exact ensures_iff_of_error (by rw [onFailure, hop])

/-- Undoing after failures leaves alone what is said of values. -/
theorem Ensures.onFailure (h : op.Ensures s onValue fun _ _ => True) (undo : Op σ Unit) :
    (onFailure op undo).Ensures s onValue fun _ _ => True := by
  refine (ensures_onFailure op undo).mpr (h.mono (fun _ _ hvalue => hvalue) fun fault t _ => ?_)
  cases fault with
  | failure failure => exact ⟨fun _ => trivial, fun _ => trivial⟩
  | violation violation => trivial

/-- An attempt turns a failure into a value, and nothing else. -/
theorem ensures_attempt {onValue : Except Failure α → σ → Prop} (op : Op σ α) :
    (attempt op).Ensures s onValue onFault ↔
      op.Ensures s (fun value => onValue (.ok value)) fun fault t =>
        match fault with
        | .failure failure => onValue (.error failure) t
        | .violation violation => onFault (.violation violation) t := by
  cases hop : op s with
  | ok value t =>
    rw [ensures_iff_of_ok hop]
    exact ensures_iff_of_ok (by rw [attempt, hop])
  | error fault t =>
    rw [ensures_iff_of_error hop]
    cases fault with
    | failure failure => exact ensures_iff_of_ok (by rw [attempt, hop])
    | violation violation => exact ensures_iff_of_error (by rw [attempt, hop])

/-- Asking for the failure of an operation turns it into a value, and nothing else. -/
theorem ensures_failure? {onValue : Option Failure → σ → Prop} (op : Op σ α) :
    (failure? op).Ensures s onValue onFault ↔
      op.Ensures s (fun _ => onValue none) fun fault t =>
        match fault with
        | .failure failure => onValue (some failure) t
        | .violation violation => onFault (.violation violation) t := by
  rw [failure?, ensures_bind, ensures_attempt]
  constructor
  · refine fun h => h.mono (fun _ _ hvalue => (ensures_pure none).mp hvalue) (fun fault _ hfault => ?_)
    cases fault with
    | failure failure => exact (ensures_pure (some failure)).mp hfault
    | violation violation => exact hfault
  · refine fun h => h.mono (fun _ _ hvalue => (ensures_pure none).mpr hvalue) (fun fault _ hfault => ?_)
    cases fault with
    | failure failure => exact (ensures_pure (some failure)).mpr hfault
    | violation violation => exact hfault

/-- An operation on a part of the state ensures what it ensures of the part. -/
theorem ensures_focus (view : σ → τ) (update : τ → σ → σ) (op : Op τ α) :
    (focus view update op).Ensures s onValue onFault ↔
      op.Ensures (view s) (fun value t => onValue value (update t s))
        (fun fault t => onFault fault (update t s)) := by
  cases hop : op (view s) with
  | ok value t =>
    rw [ensures_iff_of_ok hop]
    exact ensures_iff_of_ok (by rw [focus, hop])
  | error fault t =>
    rw [ensures_iff_of_error hop]
    exact ensures_iff_of_error (by rw [focus, hop])

end Rules

/-- However an operation ends, it does end that way. -/
theorem ensures_run (op : Op σ α) (s : σ) :
    op.Ensures s (fun value t => op s = .ok value t) fun fault t => op s = .error fault t :=
  ⟨id, id⟩

/-- Nothing needs to be known of an operation to say nothing of how it ends. -/
theorem ensures_true (op : Op σ α) (s : σ) : op.Ensures s (fun _ _ => True) fun _ _ => True :=
  ⟨fun _ => trivial, fun _ => trivial⟩

/-- Whether an operation ends with a violation. -/
def Violates (op : Op σ α) (s : σ) : Prop := ∃ violation t, op s = .error (.violation violation) t

/-- An operation violates on a condition if a value rules the condition out, and if a fault is a
violation if and only if the condition holds. -/
theorem Ensures.violates_iff {op : Op σ α} {s : σ} {condition : Prop}
    (h : op.Ensures s (fun _ _ => ¬condition)
      (fun fault _ => fault.isViolation = true ↔ condition)) : op.Violates s ↔ condition := by
  constructor
  · rintro ⟨violation, t, hrun⟩
    exact (h.of_error hrun).mp rfl
  · intro hcondition
    cases hrun : op s with
    | ok value t => exact absurd hcondition (h.of_ok hrun)
    | error fault t =>
      have hviolation := (h.of_error hrun).mpr hcondition
      cases fault with
      | failure failure => exact absurd hviolation (by simp [Fault.isViolation])
      | violation violation => exact ⟨violation, t, hrun⟩

/-- How an operation ends, and the state that it leaves behind. -/
def ending (op : Op σ α) (s : σ) : Except Fault α × σ :=
  match op s with
  | .ok value t => (.ok value, t)
  | .error fault t => (.error fault, t)

/-- An operation that succeeds ends with its value. -/
theorem ending_of_ok {op : Op σ α} {s t : σ} {value : α} (h : op s = .ok value t) :
    op.ending s = (.ok value, t) := by
  rw [ending, h]

/-- An operation that breaks off ends with its fault. -/
theorem ending_of_error {op : Op σ α} {s t : σ} {fault : Fault} (h : op s = .error fault t) :
    op.ending s = (.error fault, t) := by
  rw [ending, h]

/-- Where an operation ends, what it ensures holds. -/
theorem Ensures.ending {op : Op σ α} {s t : σ} {onValue : α → σ → Prop} {onFault : Fault → σ → Prop}
    {result : Except Fault α} (h : op.Ensures s onValue onFault) (hend : op.ending s = (result, t)) :
    match result with
    | .ok value => onValue value t
    | .error fault => onFault fault t := by
  rw [Op.ending] at hend
  split at hend
  · rename_i hok
    cases hend
    exact h.of_ok hok
  · rename_i herror
    cases hend
    exact h.of_error herror

/-- What an operation comes to unless it is violated holds where it ends without a violation. -/
theorem Ensures.ending_of_calm {op : Op σ α} {s t : σ} {motive : σ → Prop} {result : Except Fault α}
    (h : op.Ensures s (fun _ => motive) fun fault t => fault.isViolation = false → motive t)
    (hend : op.ending s = (result, t))
    (hcalm : ∀ violation, result ≠ .error (.violation violation)) : motive t := by
  have hafter := h.ending hend
  cases result with
  | ok value => exact hafter
  | error fault =>
    cases fault with
    | failure failure => exact hafter rfl
    | violation violation => exact absurd rfl (hcalm violation)

section Runs

variable {op : Op σ α} {s : σ}

/-- Whether an operation ends with a value that passes a test, as does the state it leaves behind. -/
def succeeds (op : Op σ α) (s : σ) (test : α → σ → Bool) : Bool :=
  match op s with
  | .ok value t => test value t
  | .error _ _ => false

/-- Whether an operation ends with a failure that passes a test, as does the state it leaves behind. -/
def fails (op : Op σ α) (s : σ) (test : Failure → σ → Bool) : Bool :=
  match op s with
  | .error (.failure failure) t => test failure t
  | _ => false

/-- Whether an operation ends with a violation and leaves a state behind that passes a test. -/
def isViolated (op : Op σ α) (s : σ) (test : σ → Bool) : Bool :=
  match op s with
  | .error (.violation _) t => test t
  | _ => false

/-- An operation that was run and succeeded has a value to go on with. -/
theorem exists_of_succeeds {test : α → σ → Bool} (h : op.succeeds s test = true) :
    ∃ value t, op s = .ok value t ∧ test value t = true := by
  rw [succeeds] at h
  split at h
  · rename_i value t hrun
    exact ⟨value, t, hrun, h⟩
  · contradiction

/-- An operation that was run and failed has a failure and a state to look at. -/
theorem exists_of_fails {test : Failure → σ → Bool} (h : op.fails s test = true) :
    ∃ failure t, op s = .error (.failure failure) t ∧ test failure t = true := by
  rw [fails] at h
  split at h
  · rename_i failure t hrun
    exact ⟨failure, t, hrun, h⟩
  · contradiction

/-- An operation that was run and violated has a violation and a state to look at. -/
theorem exists_of_isViolated {test : σ → Bool} (h : op.isViolated s test = true) :
    ∃ violation t, op s = .error (.violation violation) t ∧ test t = true := by
  rw [isViolated] at h
  split at h
  · rename_i violation t hrun
    exact ⟨violation, t, hrun, h⟩
  · contradiction

end Runs

end Op

end CompiledCode

import CompiledCode.Proofs.ModuleCode.InstallOnce

/-!
# One interpreter entry for each function

As long as no tier is published, calls for the interpreter entry of a function all answer the
same one: either the eager entry of its export, or the stub that one of them has made. The proof
keeps account of the blocks and the exports as calls for entries leave them, apart from what an
install has done to them that has the lock: such an install has to take it all back, as it does
not get to publish its tier.
-/

namespace CompiledCode

variable {Installer Caller : Type}

/-- Whether a call for an interpreter entry has come to its end. -/
def EntryPhase.ended : EntryPhase → Bool
  | returned _ _ | panicked => true
  | _ => false

/-- The function whose first stub is made in a step of a call for an interpreter entry. -/
def CallEvent.firstStub? : CallEvent Installer Caller → Option Nat
  | entry _ _ stubbed => stubbed
  | _ => none

/-- The functions whose first stub was made in some steps, latest first. -/
def firstStubs (trace : List (CallEvent Installer Caller)) : List Nat :=
  trace.filterMap (·.firstStub?)

/-- The function whose first stub is made in one more step comes first. -/
theorem firstStubs_cons (event : CallEvent Installer Caller)
    (trace : List (CallEvent Installer Caller)) :
    firstStubs (event :: trace) = event.firstStub?.toList ++ firstStubs trace := by
  rw [firstStubs, List.filterMap_cons]
  cases event.firstStub? <;> rfl

/-- Where no notes are added, nothing is to be said of them. -/
theorem exists_no_notes (calls : List StubCall) (P : StubCall → Prop) :
    ∃ notes, calls = calls ++ notes ∧ ∀ call ∈ notes, P call :=
  ⟨[], (List.append_nil _).symm, nofun⟩

/-- What goes for the notes that are added, and for those that are added later, goes for all. -/
theorem exists_notes_trans {P : StubCall → Prop} {first second third : List StubCall}
    (hearlier : ∃ notes, second = first ++ notes ∧ ∀ call ∈ notes, P call)
    (hlater : ∃ notes, third = second ++ notes ∧ ∀ call ∈ notes, P call) :
    ∃ notes, third = first ++ notes ∧ ∀ call ∈ notes, P call := by
  obtain ⟨earlier, rfl, hfirst⟩ := hearlier
  obtain ⟨later, rfl, hsecond⟩ := hlater
  exact ⟨earlier ++ later, List.append_assoc .., List.forall_mem_append.mpr ⟨hfirst, hsecond⟩⟩

namespace ModuleCode

variable {start kept before after : ModuleCode}

/-- Whether the export of a function has no eager entry. -/
def LacksEntry (code : ModuleCode) (func : Nat) : Prop :=
  ∃ entry, code.exportOf func = .ok entry ∧ entry.eagerEntry = none

/-- Whether an export and an address are the right answer of a call for an interpreter entry. -/
def Answers (start kept : ModuleCode) (func : Nat) (answer : FuncExport × Nat) : Prop :=
  start.exportOf func = .ok answer.1 ∧
    match answer.1.eagerEntry with
    | some index => ∃ range, (start.provider func).rangeAt index = .ok range ∧
        answer.2 = (start.provider func).addressOf range.start
    | none => kept.Filed ∧ kept.Serves func answer.2

/-- An address that answers a function is right with an export without an eager entry. -/
theorem Answers.of_serves {func address : Nat} {entry : FuncExport}
    (hexport : start.exportOf func = .ok entry) (hlazy : entry.eagerEntry = none)
    (h : kept.Filed ∧ kept.Serves func address) : Answers start kept func (entry, address) := by
  refine ⟨hexport, ?_⟩
  dsimp only
  rw [hlazy]
  exact h

/-- The right answer is still right with more blocks at the end and more exports. -/
theorem Answers.mono {func : Nat} {answer : FuncExport × Nat} (h : Answers start before func answer)
    (hfiled : before.Filed → after.Filed) (hblocks : before.blocks <+: after.blocks)
    (hexports : before.lazyExports ⊆ after.lazyExports) : Answers start after func answer := by
  obtain ⟨hexport, hanswer⟩ := h
  refine ⟨hexport, ?_⟩
  split
  · rename_i index heager
    rw [heager] at hanswer
    exact hanswer
  · rename_i hlazy
    rw [hlazy] at hanswer
    exact ⟨hfiled hanswer.1, hanswer.2.mono hblocks hexports⟩

/-- There is one right answer. -/
theorem Answers.unique {func : Nat} {first second : FuncExport × Nat}
    (h : Answers start kept func first) (h' : Answers start kept func second) : first = second := by
  obtain ⟨hexport, hanswer⟩ := h
  obtain ⟨hexport', hanswer'⟩ := h'
  have hentry : first.1 = second.1 := Except.ok.inj (hexport.symm.trans hexport')
  rw [← hentry] at hanswer'
  refine Prod.ext hentry ?_
  cases heager : first.1.eagerEntry with
  | some index =>
    rw [heager] at hanswer hanswer'
    obtain ⟨range, hrange, haddress⟩ := hanswer
    obtain ⟨range', hrange', haddress'⟩ := hanswer'
    obtain rfl : range = range' := Except.ok.inj (hrange.symm.trans hrange')
    rw [haddress, haddress']
  | none =>
    rw [heager] at hanswer hanswer'
    exact hanswer.2.unique hanswer'.2 hanswer.1

/-- What has come of the exports and the blocks since a start, given the functions whose first
stub was made. -/
structure Grown (start : ModuleCode) (funcs : List Nat) (kept : ModuleCode) : Prop where
  /-- There is one more block for every first stub. -/
  blocks : ∃ added, kept.blocks = start.blocks ++ added ∧ added.length = funcs.length
  /-- There is one more export for every first stub. -/
  exports : (kept.lazyExports.map (·.func)).Perm (funcs ++ start.lazyExports.map (·.func))
  /-- No function gets two stubs. -/
  nodup : funcs.Nodup
  /-- No function gets a stub that has one from the start. -/
  fresh : ∀ func ∈ funcs, func ∉ start.lazyExports.map (·.func)
  /-- Stubs are for functions without an eager entry. -/
  lacks : ∀ func ∈ funcs, start.LacksEntry func

/-- At the start no first stub has been made. -/
theorem grown_start (start : ModuleCode) : Grown start [] start where
  blocks := ⟨[], (List.append_nil _).symm, rfl⟩
  exports := List.Perm.refl _
  nodup := List.nodup_nil
  fresh := nofun
  lacks := nofun

/-- Code with the same blocks and exports has grown alike. -/
theorem Grown.of_sameStubs {funcs : List Nat} (h : Grown start funcs before)
    (hsame : before.SameStubs after) : Grown start funcs after where
  blocks := by
    rw [hsame.blocks]
    exact h.blocks
  exports := by
    rw [hsame.exports]
    exact h.exports
  nodup := h.nodup
  fresh := h.fresh
  lacks := h.lacks

/-- The first stub of a function makes for one more block and one more export. -/
theorem Grown.withStub {funcs : List Nat} (h : Grown start funcs before) (hfiled : before.Filed)
    {func : Nat} {kind : BlockKind} {stub : NewStub} {tier : Block}
    (hstub : stub.For before func tier) (hlacks : start.LacksEntry func)
    (hblocks : after.blocks = before.blocks ++ [stub.block])
    (hexports : after.lazyExports = (before.withStub func kind stub).lazyExports) :
    Grown start (func :: funcs) after := by
  obtain ⟨added, hadded, hlength⟩ := h.blocks
  have hvacant : func ∉ before.lazyExports.map (·.func) := by
    intro hmem
    obtain ⟨lazyExport, hin, hfunc⟩ := List.mem_map.mp hmem
    exact ne_of_searchKey_vacant hfiled.sorted hstub.vacant hin hfunc
  have hnot : func ∉ funcs ++ start.lazyExports.map (·.func) :=
    fun hmem => hvacant (h.exports.symm.subset hmem)
  rw [List.mem_append, not_or] at hnot
  constructor
  · refine ⟨added ++ [stub.block], ?_, ?_⟩
    · rw [hblocks, hadded, List.append_assoc]
    · simp [hlength]
  · have hperm := (perm_exports_withStub hfiled kind hstub).map (·.func)
    rw [hexports]
    exact hperm.trans (h.exports.cons func)
  · exact List.nodup_cons.mpr ⟨hnot.1, h.nodup⟩
  · intro other hmem
    rcases List.mem_cons.mp hmem with rfl | hold
    · exact hnot.2
    · exact h.fresh other hold
  · intro other hmem
    rcases List.mem_cons.mp hmem with rfl | hold
    · exact hlacks
    · exact h.lacks other hold

end ModuleCode

namespace InstallPhase

variable {kept before after : ModuleCode} {phase next : InstallPhase}

/-- How far the code is from what is kept account of while the call has the lock. -/
def Departs (kept code : ModuleCode) : InstallPhase → Prop
  | locked _ _ | withdrawn _ => kept.SameStubs code
  | registered _ tier2 | stopped tier2 _ =>
    code.blocks = kept.blocks ++ [tier2] ∧ code.lazyExports = kept.lazyExports
  | published _ _ | redirected => False
  | _ => True

/-- Code with the same blocks and exports is as far from what is kept account of. -/
theorem Departs.congr (h : phase.Departs kept before) (hsame : before.SameStubs after) :
    phase.Departs kept after := by
  have hrefl : kept.SameStubs before → kept.SameStubs after := fun hkept =>
    ⟨hsame.blocks.trans hkept.blocks, hsame.exports.trans hkept.exports⟩
  cases phase with
  | locked | withdrawn => exact hrefl h
  | registered | stopped => exact ⟨hsame.blocks.trans h.1, hsame.exports.trans h.2⟩
  | published | redirected => exact h
  | _ => trivial

/-- Code is no matter of calls that do not have the lock. -/
theorem departs_of_not_holds (h : phase.holds = false) : phase.Departs kept after := by
  cases phase <;> trivial

/-- A call that has panicked does not go on. -/
theorem Leads.not_panicked (h : Leads before after phase next) : phase ≠ panicked := by
  cases h with
  | panic hworks =>
    rintro rfl
    contradiction
  | _ => nofun

/-- A call that was violated has panicked. -/
theorem eq_panicked (h : phase.isPanicked = true) : phase = panicked := by
  cases phase <;> trivial

/-- A call without the lock leaves the blocks and the exports alone. -/
theorem Leads.sameStubs_of_not_holds (h : Leads before after phase next)
    (hphase : phase.holds = false) : before.SameStubs after := by
  cases h with
  | begin _ _ _ hafter | giveWay hafter | refuse _ hafter | reject hafter | build _ hafter
  | buildFails hafter =>
    rw [hafter]
    exact ⟨rfl, rfl⟩
  | panic _ hafter => exact hafter.sameStubs
  | _ => contradiction

/-- What a call does while it has the lock is to be taken back unless it publishes a tier. -/
theorem Leads.departs (h : Leads before after phase next) (hphase : phase.holds = true)
    (howns : phase.owns = true → before.tier2.block? = none)
    (hquiet : after.tier2.block? = before.tier2.block?) (hdeparts : phase.Departs kept before)
    (hblocks : kept.blocks <+: before.blocks)
    (hfuncs : before.lazyExports.map (·.func) = kept.lazyExports.map (·.func)) :
    next.Departs kept after ∧ kept.blocks <+: after.blocks ∧
      after.lazyExports.map (·.func) = kept.lazyExports.map (·.func) := by
  have hkeep (hsame : before.SameStubs after) : kept.blocks <+: after.blocks ∧
      after.lazyExports.map (·.func) = kept.lazyExports.map (·.func) := by
    rw [hsame.blocks, hsame.exports]
    exact ⟨hblocks, hfuncs⟩
  cases h with
  | @register compiler tier2 hafter =>
    have hadded : after.blocks = before.blocks ++ [tier2] := (congrArg ModuleCode.blocks hafter :)
    have hexports : after.lazyExports = before.lazyExports :=
      (congrArg ModuleCode.lazyExports hafter :)
    rw [hexports, hadded]
    refine ⟨⟨?_, hexports.trans hdeparts.exports⟩, hblocks.trans (List.prefix_append _ _), hfuncs⟩
    rw [hadded, hdeparts.blocks]
  | registerFails hafter =>
    have hundisturbed : before.Undisturbed [] after := .of_content hafter
    exact ⟨Departs.congr hdeparts hundisturbed.sameStubs, hkeep hundisturbed.sameStubs⟩
  | nothingToUpgrade _ hafter =>
    rw [hafter]
    exact ⟨trivial, hblocks, hfuncs⟩
  | upgrade batch hadds hafter =>
    have hadded : after.blocks = before.blocks ++ [batch.block] := (congrArg ModuleCode.blocks hafter :)
    rw [hadded, ModuleCode.funcs_eq_of_forall₂ hadds.exports fun _ _ => (·.func_eq)]
    exact ⟨trivial, hblocks.trans (List.prefix_append _ _), hfuncs⟩
  | upgradeFails hafter =>
    exact ⟨Departs.congr hdeparts hafter.sameStubs, hkeep hafter.sameStubs⟩
  | publish hafter =>
    rw [hafter, howns rfl] at hquiet
    contradiction
  | redirect => contradiction
  | withdraw hafter | panicWithdrawing hafter =>
    have hremoved : after.blocks = before.blocks.dropLast := (congrArg ModuleCode.blocks hafter :)
    have hexports : after.lazyExports = before.lazyExports :=
      (congrArg ModuleCode.lazyExports hafter :)
    rw [hdeparts.1, List.dropLast_concat] at hremoved
    have hsame : kept.SameStubs after := ⟨hremoved, hexports.trans hdeparts.2⟩
    rw [hremoved, hexports]
    first
      | exact ⟨hsame, List.prefix_rfl, hfuncs⟩
      | exact ⟨trivial, List.prefix_rfl, hfuncs⟩
  | panic _ hafter => exact ⟨trivial, hkeep hafter.sameStubs⟩
  | _ => contradiction

/-- The calls to the stub compiler that an install makes are for exports that there are. -/
theorem Leads.calls (h : Leads before after phase next) :
    ∃ notes, after.calls = before.calls ++ notes ∧ ∀ call ∈ notes,
      ∀ func ∈ call.requests.map (·.func),
        func ∈ before.lazyExports.map (·.func) ∧ phase.owns = true := by
  have hupgraded {oldKind : BlockKind} {func : Nat}
      (hmem : func ∈ upgradedFuncs oldKind before.lazyExports) :
      func ∈ before.lazyExports.map (·.func) :=
    List.map_subset _ (List.filter_subset_self _) hmem
  have hnone (hcalls : after.calls = before.calls) :
      ∃ notes, after.calls = before.calls ++ notes ∧ ∀ call ∈ notes,
        ∀ func ∈ call.requests.map (·.func),
          func ∈ before.lazyExports.map (·.func) ∧ phase.owns = true :=
    hcalls ▸ exists_no_notes _ _
  cases h with
  | begin _ _ _ hafter | refuse _ hafter | reject hafter | build _ hafter | buildFails hafter
  | nothingToUpgrade _ hafter | publish hafter | giveWay hafter =>
    rw [hafter] at hnone ⊢
    exact hnone rfl
  | register hafter | registerFails hafter | withdraw hafter | panicWithdrawing hafter =>
    exact hnone (congrArg ModuleCode.calls hafter :)
  | upgrade batch hadds hafter =>
    obtain ⟨note, hnoted, hcalls⟩ := hadds.noted batch rfl
    refine ⟨[note], hcalls, fun call hcall func hmem => ?_⟩
    rw [List.mem_singleton.mp hcall, hnoted.requests, hadds.funcs batch rfl] at hmem
    exact ⟨hupgraded hmem, rfl⟩
  | upgradeFails hafter =>
    obtain ⟨notes, _, hnotes, hafter⟩ := hafter
    refine ⟨notes, (congrArg ModuleCode.calls hafter :), fun call hcall func hmem => ?_⟩
    rw [hnotes call hcall] at hmem
    exact ⟨hupgraded hmem, rfl⟩
  | redirect hafter =>
    obtain ⟨notes, _, hnotes, hafter⟩ := hafter
    refine ⟨notes, (congrArg ModuleCode.calls hafter :), fun call hcall func hmem => ?_⟩
    rw [hnotes call hcall] at hmem
    contradiction
  | panic hworks hafter =>
    obtain ⟨notes, _, hnotes, hafter⟩ := hafter
    refine ⟨notes, (congrArg ModuleCode.calls hafter :), fun call hcall func hmem => ?_⟩
    rw [hnotes call hcall] at hmem
    cases phase with
    | registered compiler tier2 => exact ⟨hupgraded hmem, rfl⟩
    | _ => contradiction

end InstallPhase

namespace EntryPhase

variable {compiler : Option QuietCompiler} {start kept before after : ModuleCode}
  {phase next : EntryPhase}

/-- Whether what the call has found out is right. -/
def Right (start kept : ModuleCode) : EntryPhase → Prop
  | idle | panicked => True
  | exported func entry | hinted func entry | waiting func entry | locked func entry =>
    start.exportOf func = .ok entry ∧ entry.eagerEntry = none
  | missing func => start.LacksEntry func
  | leaving func result | returned func result =>
    ∀ answer, result = .ok answer → start.Answers kept func answer

/-- What the call has found out is still right when all answers are. -/
theorem Right.mono (h : phase.Right start before)
    (hanswers : ∀ func answer, start.Answers before func answer → start.Answers after func answer) :
    phase.Right start after := by
  cases phase with
  | leaving func result | returned func result =>
    exact fun answer hresult => hanswers func answer (h answer hresult)
  | _ => exact h

/-- A call that has come to its end does nothing more. -/
theorem Leads.ended (h : Leads compiler before after phase next) (hphase : phase.ended = true) :
    next.ended = true ∧ after = before := by
  cases h with
  | panic hafter => exact ⟨rfl, hafter⟩
  | _ => contradiction

/-- With the same blocks no stub has been made. -/
theorem stubbed?_of_sameStubs (h : before.SameStubs after) (phase : EntryPhase) :
    phase.stubbed? before after = none := by
  cases phase with
  | missing func => rw [stubbed?, h.blocks, if_neg (Nat.lt_irrefl _)]
  | _ => rfl

/-- With one more block the first stub of a function has been made. -/
theorem stubbed?_of_concat {block : Block} {func : Nat} (h : after.blocks = before.blocks ++ [block]) :
    (missing func).stubbed? before after = some func := by
  rw [stubbed?, h, List.length_append, List.length_singleton, if_pos (Nat.lt_add_one _)]

/-- The calls to the stub compiler that a call makes are for the function that has no stub. -/
theorem Leads.calls (h : Leads compiler before after phase next) :
    ∃ notes, after.calls = before.calls ++ notes ∧ ∀ call ∈ notes,
      ∀ func ∈ call.requests.map (·.func), phase = missing func := by
  have hattempted {func : Nat} (hafter : Attempted (before.provider func) [func] before after) :
      ∃ notes, after.calls = before.calls ++ notes ∧ ∀ call ∈ notes,
        ∀ other ∈ call.requests.map (·.func), missing func = missing other := by
    obtain ⟨notes, _, hnotes, hafter⟩ := ModuleCode.Undisturbed.of_attempted hafter
    refine ⟨notes, (congrArg ModuleCode.calls hafter :), fun call hcall other hmem => ?_⟩
    rw [hnotes call hcall] at hmem
    rw [List.mem_singleton.mp hmem]
  cases h with
  | eager _ _ _ hafter | read _ _ hafter | hint hafter | noHint hafter | lookFinds _ hafter
  | lookMisses hafter | find _ hafter | miss hafter | panic hafter =>
    rw [hafter]
    exact exists_no_notes _ _
  | make _ stub _ hstub hafter _ | panicMade stub _ hstub hafter =>
    refine ⟨[stub.call], ModuleCode.calls_of_withStub hafter, fun call hcall other hmem => ?_⟩
    rw [List.mem_singleton.mp hcall, hstub.notes.funcs] at hmem
    rw [List.mem_singleton.mp hmem]
  | fail hafter | panicAttempting hafter => exact hattempted hafter

end EntryPhase

namespace Scene

variable [DecidableEq Installer] [DecidableEq Caller] {s t u : Scene Installer Caller}
  {kept : ModuleCode} {event : CallEvent Installer Caller}
  {trace : List (CallEvent Installer Caller)}

omit [DecidableEq Installer] [DecidableEq Caller] in
/-- Whether no install has the lock, or has panicked and made the lock useless since a start. -/
structure InstallsOut (s t : Scene Installer Caller) : Prop where
  released : ∀ i, (t.installs i).holds = false
  unbroken : t.lock = .poisoned → ∀ i, t.installs i = .panicked → s.installs i = .panicked

omit [DecidableEq Installer] [DecidableEq Caller] in
/-- Whether the code of a module is what is kept account of, apart from what an install has done
since a start that has the lock. -/
structure Covers (s t : Scene Installer Caller) (kept : ModuleCode) : Prop where
  /-- The blocks that are kept account of come first. -/
  blocks : kept.blocks <+: t.running.code.blocks
  /-- There are exports for the same functions. -/
  funcs : t.running.code.lazyExports.map (·.func) = kept.lazyExports.map (·.func)
  /-- What installs have done is known while they have the lock. -/
  departs : ∀ i, (t.installs i).Departs kept t.running.code
  /-- What installs have done is taken back when they do not have the lock any more. -/
  settled : InstallsOut s t → kept.SameStubs t.running.code
  /-- Installs that have panicked do not go on. -/
  panicked : ∀ i, s.installs i = .panicked → t.installs i = .panicked

omit [DecidableEq Installer] [DecidableEq Caller] in
/-- What changes neither the blocks nor the exports nor an install is of no account. -/
theorem Covers.congr (h : Covers s t kept) (hinstalls : u.installs = t.installs)
    (hsame : t.running.code.SameStubs u.running.code)
    (hlock : t.lock = .poisoned → u.lock = .poisoned) : Covers s u kept where
  blocks := by
    rw [hsame.blocks]
    exact h.blocks
  funcs := by
    rw [hsame.exports]
    exact h.funcs
  departs i := by
    rw [hinstalls]
    exact (h.departs i).congr hsame
  settled hout := by
    obtain ⟨hreleased, hunbroken⟩ := hout
    rw [hinstalls] at hreleased hunbroken
    have hkept := h.settled ⟨hreleased, fun hpoisoned => hunbroken (hlock hpoisoned)⟩
    exact ⟨hsame.blocks.trans hkept.blocks, hsame.exports.trans hkept.exports⟩
  panicked i hi := by
    rw [hinstalls]
    exact h.panicked i hi

omit [DecidableEq Caller] in
/-- What an install does without the lock is of no account. -/
theorem Covers.move (h : Covers s t kept) {i : Installer} {next : InstallPhase}
    (hinstalls : u.installs = Function.update t.installs i next)
    (hsame : t.running.code.SameStubs u.running.code) (hlock : u.lock = t.lock)
    (hphase : (t.installs i).holds = false) (hnext : next.holds = false)
    (hnot : t.installs i ≠ .panicked) : Covers s u kept where
  blocks := by
    rw [hsame.blocks]
    exact h.blocks
  funcs := by
    rw [hsame.exports]
    exact h.funcs
  departs j := by
    rw [hinstalls]
    rcases update_self_or_of_ne t.installs i next j with ⟨-, hmoved⟩ | hmoved <;> rw [hmoved]
    · exact InstallPhase.departs_of_not_holds hnext
    · exact (h.departs j).congr hsame
  settled hout := by
    obtain ⟨hreleased, hunbroken⟩ := hout
    have hkept := h.settled ⟨fun j => ?_, fun hpoisoned j hj => ?_⟩
    · exact ⟨hsame.blocks.trans hkept.blocks, hsame.exports.trans hkept.exports⟩
    · by_cases hji : j = i
      · rw [hji, hphase]
      · have hj := hreleased j
        rwa [hinstalls, Function.update_of_ne hji] at hj
    · have hji : j ≠ i := fun heq => hnot (heq ▸ hj)
      refine hunbroken (hlock.trans hpoisoned) j ?_
      rw [hinstalls, Function.update_of_ne hji, hj]
  panicked j hj := by
    have hpanicked := h.panicked j hj
    have hji : j ≠ i := fun heq => hnot (heq ▸ hpanicked)
    rw [hinstalls, Function.update_of_ne hji, hpanicked]

omit [DecidableEq Caller] in
/-- A step of an install that does not publish a tier is to be taken back. -/
theorem Covers.install (h : Covers s t kept) (hguarded : Guarded t) (hexclusive : Exclusive t)
    {i : Installer} {next : InstallPhase} {running : Running}
    (hleads : (t.installs i).Leads t.running.code running.code next)
    (hquiet : running.code.tier2.block? = t.running.code.tier2.block?) :
    Covers s (t.moveInstall i next running) kept := by
  have hnot := hleads.not_panicked
  have hholds := hleads.holds_eq
  by_cases hphase : (t.installs i).holds = true
  · have howns (h : (t.installs i).owns = true) := hexclusive.unpublished h
    obtain ⟨hdeparts, hblocks, hfuncs⟩ :=
      hleads.departs hphase howns hquiet (h.departs i) h.blocks h.funcs
    have hself : Function.update t.installs i next i = next := Function.update_self ..
    refine ⟨hblocks, hfuncs, fun j => ?_, fun hout => ?_, fun j hj => ?_⟩
    · change (Function.update t.installs i next j).Departs kept running.code
      by_cases hji : j = i
      · rw [hji, hself]
        exact hdeparts
      · rw [Function.update_of_ne hji]
        exact InstallPhase.departs_of_not_holds ((hguarded.of_install hphase).1 j hji)
    · -- The install still has the lock, or it has just panicked with it.
      obtain ⟨hreleased, hunbroken⟩ := hout
      cases hpanic : next.isPanicked with
      | false =>
        have hi := hreleased i
        change (Function.update t.installs i next i).holds = false at hi
        rw [hself, hholds, hpanic, hphase] at hi
        contradiction
      | true =>
        have hpanicked : next = .panicked := InstallPhase.eq_panicked hpanic
        have hlock : (t.moveInstall i next running).lock = .poisoned :=
          if_pos (by rw [hpanic, hphase]; rfl)
        exact absurd (h.panicked i (hunbroken hlock i (hself.trans hpanicked))) hnot
    · have hpanicked := h.panicked j hj
      have hji : j ≠ i := fun heq => hnot (heq ▸ hpanicked)
      exact (Function.update_of_ne hji ..).trans hpanicked
  · rw [Bool.not_eq_true] at hphase
    rw [hphase, Bool.and_false] at hholds
    refine h.move (i := i) rfl (hleads.sameStubs_of_not_holds hphase) ?_ hphase hholds hnot
    change (if next.isPanicked && (t.installs i).holds then _ else _) = _
    rw [hphase, Bool.and_false, if_neg Bool.false_ne_true]

omit [DecidableEq Installer] [DecidableEq Caller] in
/-- An install that gets the lock has not done anything yet. -/
theorem Covers.lock [DecidableEq Installer] (h : Covers s t kept)
    (hreleased : ∀ i, (t.installs i).holds = false) (hsame : kept.SameStubs t.running.code)
    {i : Installer} {compiler : QuietCompiler} {tier2 : Block}
    (hbuilt : t.installs i = .built compiler tier2) :
    Covers s
      { t with
        lock := .installer i
        installs := Function.update t.installs i (.locked compiler tier2) } kept where
  blocks := h.blocks
  funcs := h.funcs
  departs j := by
    rcases update_self_or_of_ne t.installs i (.locked compiler tier2) j with ⟨-, hmoved⟩ | hmoved <;>
      dsimp only <;> rw [hmoved]
    · exact hsame
    · exact InstallPhase.departs_of_not_holds (hreleased j)
  settled hout := by
    have hi := hout.released i
    dsimp only at hi
    rw [Function.update_self] at hi
    contradiction
  panicked j hj := by
    have hpanicked := h.panicked j hj
    have hji : j ≠ i := by
      rintro rfl
      rw [hbuilt] at hpanicked
      contradiction
    dsimp only
    rw [Function.update_of_ne hji, hpanicked]

omit [DecidableEq Installer] [DecidableEq Caller] in
/-- An install that gives the lock back has taken back whatever it has done. -/
theorem Covers.unlock [DecidableEq Installer] (h : Covers s t kept) (hguarded : Guarded t)
    {i : Installer} {next : InstallPhase} (hnext : (t.installs i).unlocked? = some next) :
    Covers s { t with lock := .free, installs := Function.update t.installs i next } kept := by
  obtain ⟨hphase, hreleased⟩ := InstallPhase.holds_of_unlocked? hnext
  have hothers := (hguarded.of_install hphase).1
  have hsame : kept.SameStubs t.running.code := by
    have hdeparts := h.departs i
    generalize t.installs i = phase at hnext hdeparts
    cases phase with
    | withdrawn failure => exact hdeparts
    | _ => contradiction
  refine ⟨h.blocks, h.funcs, fun j => ?_, fun _ => hsame, fun j hj => ?_⟩
  · dsimp only
    by_cases hji : j = i
    · rw [hji, Function.update_self]
      exact InstallPhase.departs_of_not_holds hreleased
    · rw [Function.update_of_ne hji]
      exact InstallPhase.departs_of_not_holds (hothers j hji)
  · have hpanicked := h.panicked j hj
    have hji : j ≠ i := by
      rintro rfl
      rw [hpanicked] at hphase
      contradiction
    dsimp only
    rw [Function.update_of_ne hji, hpanicked]

omit [DecidableEq Installer] [DecidableEq Caller] in
/-- Whether all calls for entries have been answered rightly since a start. -/
structure Served (s : Scene Installer Caller) (trace : List (CallEvent Installer Caller))
    (t : Scene Installer Caller) (kept : ModuleCode) : Prop where
  /-- The parts that are there from the start are what they were. -/
  base : s.running.code.SameBase t.running.code
  /-- A useless lock stays so. -/
  poisoned : s.lock = .poisoned → t.lock = .poisoned
  /-- Blocks and exports are kept account of since the start. -/
  grown : s.running.code.Grown (firstStubs trace) kept
  /-- The exports that are kept account of refer to interpreter entries of their functions. -/
  filed : s.lock ≠ .poisoned → kept.Filed
  /-- The code is what is kept account of, apart from what an install has done. -/
  covers : Covers s t kept
  /-- What calls have found out that began since the start is right. -/
  right : ∀ c, s.entries c = .idle → (t.entries c).Right s.running.code kept
  /-- The other calls had come to their end. -/
  ended : ∀ c, s.entries c ≠ .idle → (t.entries c).ended = true
  /-- The stub compiler is called for functions without an eager entry, or else for an upgrade. -/
  calls : ∃ notes, t.running.code.calls = s.running.code.calls ++ notes ∧ ∀ call ∈ notes,
    ∀ func ∈ call.requests.map (·.func), s.running.code.LacksEntry func ∨
      func ∈ s.running.code.lazyExports.map (·.func) ∧ s.running.code.tier2.block? = none

omit [DecidableEq Installer] [DecidableEq Caller] in
/-- The provider of a function is the same as long as no tier is published. -/
theorem provider_eq {before after : ModuleCode} (hbase : before.SameBase after)
    (hquiet : after.tier2.block? = before.tier2.block?) : after.provider = before.provider := by
  funext func
  rw [ModuleCode.provider, ModuleCode.provider, hbase.imports, hbase.sharedStubs, hbase.tier1, hquiet]

omit [DecidableEq Installer] [DecidableEq Caller] in
/-- The export of a function is the same as long as no tier is published. -/
theorem exportOf_eq {before after : ModuleCode} (hbase : before.SameBase after)
    (hquiet : after.tier2.block? = before.tier2.block?) : after.exportOf = before.exportOf := by
  funext func
  rw [ModuleCode.exportOf, ModuleCode.exportOf, provider_eq hbase hquiet]

omit [DecidableEq Installer] [DecidableEq Caller] in
/-- While the lock is free or a call for an entry has it, the code is what is kept account of. -/
theorem Served.sameStubs (h : Served s trace t kept)
    (hreleased : ∀ i, (t.installs i).holds = false) (hlive : t.lock ≠ .poisoned) :
    kept.SameStubs t.running.code :=
  h.covers.settled ⟨hreleased, fun hpoisoned => absurd hpoisoned hlive⟩

omit [DecidableEq Installer] [DecidableEq Caller] in
/-- What is looked up for a function then is what answers it. -/
theorem Served.answer (h : Served s trace t kept) (hreleased : ∀ i, (t.installs i).holds = false)
    (hlive : t.lock ≠ .poisoned) {func address : Nat}
    (hfound : t.running.code.lazyEntry func = .ok (some address)) :
    kept.Filed ∧ kept.Serves func address := by
  have hsame := h.sameStubs hreleased hlive
  refine ⟨h.filed fun hpoisoned => hlive (h.poisoned hpoisoned), ?_⟩
  refine (ModuleCode.serves_of_lazyEntry hfound).mono (hsame.blocks ▸ List.prefix_rfl) ?_
  rw [hsame.exports]
  exact List.Subset.refl _

omit [DecidableEq Installer] [DecidableEq Caller] in
/-- A step that makes no first stub serves all calls if they go on rightly. -/
theorem Served.goesOn (h : Served s trace t kept) (hevent : event.firstStub? = none)
    (hbase : t.running.code.SameBase u.running.code)
    (hlock : t.lock = .poisoned → u.lock = .poisoned) (hcovers : Covers s u kept)
    (hright : ∀ c, s.entries c = .idle → (u.entries c).Right s.running.code kept)
    (hended : ∀ c, s.entries c ≠ .idle → (u.entries c).ended = true)
    (hcalls : ∃ notes, u.running.code.calls = t.running.code.calls ++ notes ∧ ∀ call ∈ notes,
      ∀ func ∈ call.requests.map (·.func), s.running.code.LacksEntry func ∨
        func ∈ s.running.code.lazyExports.map (·.func) ∧ s.running.code.tier2.block? = none) :
    Served s (event :: trace) u kept where
  base := h.base.trans hbase
  poisoned hpoisoned := hlock (h.poisoned hpoisoned)
  grown := by
    rw [firstStubs_cons, hevent]
    exact h.grown
  filed := h.filed
  covers := hcovers
  right := hright
  ended := hended
  calls := exists_notes_trans h.calls hcalls

omit [DecidableEq Installer] [DecidableEq Caller] in
/-- A step that is not one of a call for an entry, and does not publish a tier, is of no account. -/
theorem Served.keep (h : Served s trace t kept) (hevent : event.firstStub? = none)
    (hbase : t.running.code.SameBase u.running.code)
    (hlock : t.lock = .poisoned → u.lock = .poisoned) (hentries : u.entries = t.entries)
    (hcovers : Covers s u kept)
    (hcalls : ∃ notes, u.running.code.calls = t.running.code.calls ++ notes ∧ ∀ call ∈ notes,
      ∀ func ∈ call.requests.map (·.func), s.running.code.LacksEntry func ∨
        func ∈ s.running.code.lazyExports.map (·.func) ∧ s.running.code.tier2.block? = none) :
    Served s (event :: trace) u kept := by
  refine h.goesOn hevent hbase hlock hcovers ?_ ?_ hcalls
  · rw [hentries]
    exact h.right
  · rw [hentries]
    exact h.ended

omit [DecidableEq Installer] in
/-- A call for an entry that moves on without making a stub, and is right, is served. -/
theorem Served.moveEntry (h : Served s trace t kept) {c : Caller} {next : EntryPhase}
    (hevent : event.firstStub? = none) (hentries : u.entries = Function.update t.entries c next)
    (hinstalls : u.installs = t.installs) (hbase : t.running.code.SameBase u.running.code)
    (hsame : t.running.code.SameStubs u.running.code)
    (hlock : t.lock = .poisoned → u.lock = .poisoned)
    (hright : s.entries c = .idle → next.Right s.running.code kept)
    (hended : s.entries c ≠ .idle → next.ended = true)
    (hcalls : ∃ notes, u.running.code.calls = t.running.code.calls ++ notes ∧ ∀ call ∈ notes,
      ∀ func ∈ call.requests.map (·.func), s.running.code.LacksEntry func) :
    Served s (event :: trace) u kept := by
  obtain ⟨notes, hnotes, hlacks⟩ := hcalls
  refine h.goesOn hevent hbase hlock (h.covers.congr hinstalls hsame hlock) (fun d hidle => ?_)
    (fun d hbegun => ?_) ⟨notes, hnotes, fun call hcall func hmem => .inl (hlacks call hcall func hmem)⟩
  · rw [hentries]
    rcases update_self_or_of_ne t.entries c next d with ⟨rfl, hmoved⟩ | hmoved <;> rw [hmoved]
    · exact hright hidle
    · exact h.right d hidle
  · rw [hentries]
    rcases update_self_or_of_ne t.entries c next d with ⟨rfl, hmoved⟩ | hmoved <;> rw [hmoved]
    · exact hended hbegun
    · exact h.ended d hbegun

omit [DecidableEq Installer] [DecidableEq Caller] in
/-- A call that is about to make a stub has begun since the start, for a function without an eager
entry. -/
theorem Served.of_missing (h : Served s trace t kept) {c : Caller} {func : Nat}
    (hphase : t.entries c = .missing func) :
    s.entries c = .idle ∧ s.running.code.LacksEntry func := by
  have hbegun : s.entries c = .idle := by
    by_contra hbegun
    have hended := h.ended c hbegun
    rw [hphase] at hended
    contradiction
  have hmissing := h.right c hbegun
  rw [hphase] at hmissing
  exact ⟨hbegun, hmissing⟩

omit [DecidableEq Installer] in
/-- A call for an entry that makes the first stub of its function is served. -/
theorem Served.makeStub (h : Served s trace t kept) (hguarded : Guarded t) {c : Caller} {func : Nat}
    {next : EntryPhase} {stub : NewStub} {dispatch : DispatchTables}
    (hphase : t.entries c = .missing func)
    (hstub : stub.For t.running.code func (t.running.code.provider func))
    (hcode : u.running.code.content =
      (t.running.code.content.withStub func (t.running.code.provider func).kind stub).withDispatch
        dispatch)
    (hevent : event.firstStub? = some func)
    (hentries : u.entries = Function.update t.entries c next)
    (hinstalls : u.installs = t.installs) (hlock : t.lock = .poisoned → u.lock = .poisoned)
    (hright : s.running.code.LacksEntry func → u.running.code.Filed →
      u.running.code.Serves func (stub.block.addressOf stub.range.start) →
      next.Right s.running.code u.running.code) :
    Served s (event :: trace) u u.running.code := by
  have hheld : (t.entries c).holds = true := by rw [hphase]; rfl
  have hlive := hguarded.live_of_entry hheld
  have hreleased := (hguarded.of_entry hheld).1
  obtain ⟨hbegun, hlacks⟩ := h.of_missing hphase
  have hsame := h.sameStubs hreleased hlive
  have hfiled : t.running.code.Filed := by
    exact (h.filed fun hpoisoned => hlive (h.poisoned hpoisoned)).of_isPrefix
      (hsame.blocks ▸ List.prefix_rfl) hsame.exports
  obtain ⟨hbase, -⟩ := ModuleCode.frame_of_withStub hcode
  obtain ⟨hblocks, hexports⟩ := ModuleCode.stubs_of_withStub hcode
  have hfiled' := ModuleCode.filed_of_withStub hfiled hstub hcode
  have hserves := ModuleCode.serves_of_withStub hfiled hstub hcode
  have hanswers : ∀ other answer, s.running.code.Answers kept other answer →
      s.running.code.Answers u.running.code other answer := by
    intro other answer hanswer
    refine hanswer.mono (fun _ => hfiled') ?_ ?_
    · rw [hblocks, hsame.blocks]
      exact List.prefix_append _ _
    · rw [hexports, ← hsame.exports]
      intro lazyExport hmem
      exact (ModuleCode.perm_exports_withStub hfiled _ hstub).symm.subset (List.mem_cons_of_mem _ hmem)
  constructor
  case base => exact h.base.trans hbase
  case poisoned => exact fun hpoisoned => hlock (h.poisoned hpoisoned)
  case grown =>
    rw [firstStubs_cons, hevent]
    exact (h.grown.of_sameStubs hsame).withStub hfiled hstub hlacks hblocks hexports
  case filed => exact fun _ => hfiled'
  case covers =>
    refine ⟨List.prefix_rfl, rfl, fun i => ?_, fun _ => ⟨rfl, rfl⟩, fun i hi => ?_⟩
    · rw [hinstalls]
      exact InstallPhase.departs_of_not_holds (hreleased i)
    · rw [hinstalls]
      exact h.covers.panicked i hi
  case right =>
    intro d hidle
    rw [hentries]
    rcases update_self_or_of_ne t.entries c next d with ⟨-, hmoved⟩ | hmoved <;> rw [hmoved]
    · exact hright hlacks hfiled' hserves
    · exact (h.right d hidle).mono hanswers
  case ended =>
    intro d hd
    rw [hentries]
    rcases update_self_or_of_ne t.entries c next d with ⟨rfl, -⟩ | hmoved
    · exact absurd hbegun hd
    · rw [hmoved]
      exact h.ended d hd
  case calls =>
    refine exists_notes_trans h.calls
      ⟨[stub.call], ModuleCode.calls_of_withStub hcode, fun call hcall other hmem => ?_⟩
    rw [List.mem_singleton.mp hcall, hstub.notes.funcs] at hmem
    rw [List.mem_singleton.mp hmem]
    exact .inl hlacks

omit [DecidableEq Installer] in
/-- An operation of a call for an entry serves it. -/
theorem Served.entry (h : Served s trace t kept) (hguarded : Guarded t)
    (hquiet : t.running.code.tier2.block? = s.running.code.tier2.block?) {c : Caller}
    {compiler : Option QuietCompiler} {next : EntryPhase} {running : Running}
    (hshared : ∀ func found, t.entries c = .hinted func found → t.lock = .free)
    (hleads : (t.entries c).Leads compiler t.running.code running.code next)
    (hlock : t.lock = .poisoned → (t.moveEntry c next running).lock = .poisoned) :
    ∃ kept', Served s
      (.entry c compiler ((t.entries c).stubbed? t.running.code running.code) :: trace)
      (t.moveEntry c next running) kept' := by
  have hbase := hleads.sameBase
  have hprovider := provider_eq h.base hquiet
  have hexportOf := exportOf_eq h.base hquiet
  have hheld := fun hholds => (hguarded.of_entry (c := c) hholds).1
  have hlive (hholds : (t.entries c).holds = true) := hguarded.live_of_entry hholds
  have hkeep (hsame : t.running.code.SameStubs running.code)
      (hright : s.entries c = .idle → next.Right s.running.code kept)
      (hended : s.entries c ≠ .idle → next.ended = true)
      (hcalls : ∃ notes, running.code.calls = t.running.code.calls ++ notes ∧ ∀ call ∈ notes,
        ∀ func ∈ call.requests.map (·.func), s.running.code.LacksEntry func) :
      ∃ kept', Served s
        (.entry c compiler ((t.entries c).stubbed? t.running.code running.code) :: trace)
        (t.moveEntry c next running) kept' := by
    rw [EntryPhase.stubbed?_of_sameStubs hsame]
    exact ⟨kept, h.moveEntry rfl rfl rfl hbase hsame hlock hright hended hcalls⟩
  have hattempts (hlacks : (t.entries c).Right s.running.code kept) :
      ∃ notes, running.code.calls = t.running.code.calls ++ notes ∧ ∀ call ∈ notes,
        ∀ func ∈ call.requests.map (·.func), s.running.code.LacksEntry func := by
    obtain ⟨notes, hnotes, hfuncs⟩ := hleads.calls
    refine ⟨notes, hnotes, fun call hcall func hmem => ?_⟩
    rwa [hfuncs call hcall func hmem] at hlacks
  by_cases hbegun : s.entries c = .idle
  · have hright := h.right c hbegun
    have hended : s.entries c ≠ .idle → next.ended = true := fun hnot => absurd hbegun hnot
    generalize hphase : t.entries c = phase at *
    cases hleads with
    | @eager func index entry range hexport heager hrange hafter =>
      rw [hexportOf] at hexport
      rw [hprovider] at hrange
      rw [hafter] at hkeep ⊢
      refine hkeep ⟨rfl, rfl⟩ (fun _ answer hanswer => ?_) hended (exists_no_notes _ _)
      cases hanswer
      refine ⟨hexport, ?_⟩
      rw [heager, hprovider]
      exact ⟨range, hrange, rfl⟩
    | read hexport hlazy hafter =>
      rw [hexportOf] at hexport
      rw [hafter] at hkeep ⊢
      exact hkeep ⟨rfl, rfl⟩ (fun _ => ⟨hexport, hlazy⟩) hended (exists_no_notes _ _)
    | hint hafter | noHint hafter | lookMisses hafter =>
      rw [hafter] at hkeep ⊢
      exact hkeep ⟨rfl, rfl⟩ (fun _ => hright) hended (exists_no_notes _ _)
    | lookFinds hfound hafter =>
      have hfree := hshared _ _ rfl
      have hserved := h.answer (hguarded.of_free hfree).1 (by rw [hfree]; nofun) hfound
      rw [hafter] at hkeep ⊢
      refine hkeep ⟨rfl, rfl⟩ (fun _ answer hanswer => ?_) hended (exists_no_notes _ _)
      cases hanswer
      exact .of_serves hright.1 hright.2 hserved
    | find hfound hafter =>
      have hserved := h.answer (hheld rfl) (hlive rfl) hfound
      rw [hafter] at hkeep ⊢
      refine hkeep ⟨rfl, rfl⟩ (fun _ answer hanswer => ?_) hended (exists_no_notes _ _)
      cases hanswer
      exact .of_serves hright.1 hright.2 hserved
    | miss hafter =>
      rw [hafter] at hkeep ⊢
      exact hkeep ⟨rfl, rfl⟩ (fun _ => ⟨_, hright⟩) hended (exists_no_notes _ _)
    | @make func entry hexport stub dispatch hstub hafter _ =>
      rw [hexportOf] at hexport
      refine ⟨_, h.makeStub (u := t.moveEntry c _ running) hguarded hphase hstub hafter ?_ rfl rfl hlock
        fun hlacks hfiled hserves answer hanswer => ?_⟩
      · exact EntryPhase.stubbed?_of_concat (ModuleCode.stubs_of_withStub hafter).1
      · cases hanswer
        obtain ⟨other, hother, hlazy⟩ := hlacks
        obtain rfl : entry = other := Except.ok.inj (hexport.symm.trans hother)
        exact .of_serves hexport hlazy ⟨hfiled, hserves⟩
    | fail hafter =>
      refine hkeep (ModuleCode.Undisturbed.of_attempted hafter).sameStubs
        (fun _ answer hanswer => ?_) hended (hattempts hright)
      contradiction
    | panic hafter =>
      rw [hafter] at hkeep ⊢
      exact hkeep ⟨rfl, rfl⟩ (fun _ => trivial) hended (exists_no_notes _ _)
    | panicAttempting hafter =>
      exact hkeep (ModuleCode.Undisturbed.of_attempted hafter).sameStubs (fun _ => trivial) hended
        (hattempts hright)
    | panicMade stub dispatch hstub hafter =>
      refine ⟨_, h.makeStub (u := t.moveEntry c _ running) hguarded hphase hstub hafter ?_ rfl rfl hlock
        fun _ _ _ => trivial⟩
      exact EntryPhase.stubbed?_of_concat (ModuleCode.stubs_of_withStub hafter).1
  · obtain ⟨hnext, hafter⟩ := hleads.ended (h.ended c hbegun)
    rw [hafter] at hkeep
    exact hafter ▸ hkeep ⟨rfl, rfl⟩ (fun hidle => absurd hidle hbegun) (fun _ => hnext)
      (exists_no_notes _ _)

/-- Steps of calls for entries, and of installs that do not publish a tier, serve all calls. -/
theorem Served.step (h : Served s trace t kept) (hguarded : Guarded t) (hexclusive : Exclusive t)
    (hbefore : t.running.code.tier2.block? = s.running.code.tier2.block?)
    (hstep : Step t event u) (hafter : u.running.code.tier2.block? = s.running.code.tier2.block?) :
    ∃ kept', Served s (event :: trace) u kept' := by
  have hlock := lock_eq_poisoned hguarded hstep
  have hquiet := hafter.trans hbefore.symm
  cases hstep.effect with
  | install i next running hleads =>
    refine ⟨kept, h.keep rfl hleads.sameBase hlock rfl
      (h.covers.install hguarded hexclusive hleads hquiet) ?_⟩
    obtain ⟨notes, hnotes, hfuncs⟩ := hleads.calls
    refine ⟨notes, hnotes, fun call hcall func hmem => ?_⟩
    obtain ⟨hmem, howns⟩ := hfuncs call hcall func hmem
    rw [h.covers.funcs] at hmem
    rcases List.mem_append.mp (h.grown.exports.subset hmem) with hmade | hold
    · exact .inl (h.grown.lacks func hmade)
    · exact .inr ⟨hold, hbefore ▸ hexclusive.unpublished howns⟩
  | lockInstall i compiler tier2 hbuilt hfree =>
    obtain ⟨hreleased, -⟩ := hguarded.of_free hfree
    have hsame := h.sameStubs hreleased (by rw [hfree]; nofun)
    exact ⟨kept, h.keep rfl ⟨rfl, rfl, rfl⟩ hlock rfl (h.covers.lock hreleased hsame hbuilt)
      (exists_no_notes _ _)⟩
  | poisonInstall i compiler tier2 hbuilt =>
    refine ⟨kept, h.keep rfl ⟨rfl, rfl, rfl⟩ hlock rfl ?_ (exists_no_notes _ _)⟩
    refine h.covers.move (i := i) rfl ⟨rfl, rfl⟩ rfl ?_ rfl ?_ <;> rw [hbuilt]
    · rfl
    · nofun
  | unlockInstall i next hnext =>
    exact ⟨kept, h.keep rfl ⟨rfl, rfl, rfl⟩ hlock rfl (h.covers.unlock hguarded hnext)
      (exists_no_notes _ _)⟩
  | entry c compiler next running hshared hleads => exact h.entry hguarded hbefore hshared hleads hlock
  | lockEntry c func found hwaiting hfree =>
    refine ⟨kept, h.moveEntry rfl rfl rfl ⟨rfl, rfl, rfl⟩ ⟨rfl, rfl⟩ hlock (fun hidle => ?_)
      (fun hbegun => ?_) (exists_no_notes _ _)⟩
    · have hright := h.right c hidle
      rwa [hwaiting] at hright
    · have hended := h.ended c hbegun
      rw [hwaiting] at hended
      contradiction
  | poisonEntry c =>
    exact ⟨kept, h.moveEntry rfl rfl rfl ⟨rfl, rfl, rfl⟩ ⟨rfl, rfl⟩ hlock (fun _ => trivial)
      (fun _ => rfl) (exists_no_notes _ _)⟩
  | unlockEntry c func result hleaving =>
    refine ⟨kept, h.moveEntry rfl rfl rfl ⟨rfl, rfl, rfl⟩ ⟨rfl, rfl⟩ hlock (fun hidle => ?_)
      (fun _ => rfl) (exists_no_notes _ _)⟩
    have hright := h.right c hidle
    rwa [hleaving] at hright
  | outside engine dispatch =>
    exact ⟨kept, h.keep rfl ⟨rfl, rfl, rfl⟩ hlock rfl (h.covers.congr rfl ⟨rfl, rfl⟩ hlock)
      (exists_no_notes _ _)⟩

omit [DecidableEq Installer] [DecidableEq Caller] in
/-- At a start no call has to be served yet. -/
theorem served_start (hreleased : ∀ i, (s.installs i).holds = false)
    (hended : ∀ c, s.entries c = .idle ∨ (s.entries c).ended = true)
    (hfiled : s.lock ≠ .poisoned → s.running.code.Filed) : Served s [] s s.running.code where
  base := ⟨rfl, rfl, rfl⟩
  poisoned := id
  grown := ModuleCode.grown_start _
  filed := hfiled
  covers := ⟨List.prefix_rfl, rfl, fun i => InstallPhase.departs_of_not_holds (hreleased i),
    fun _ => ⟨rfl, rfl⟩, fun _ => id⟩
  right c hidle := by
    rw [hidle]
    trivial
  ended c hbegun := (hended c).resolve_left hbegun
  calls := exists_no_notes _ _

/-- Runs in which no tier is published serve all calls. -/
theorem Served.run (h : Served s [] s kept) (hguarded : Guarded s) (hexclusive : Exclusive s)
    (hrun : Run s trace t) (hquiet : t.running.code.tier2.block? = s.running.code.tier2.block?) :
    ∃ kept', Served s trace t kept' := by
  induction hrun with
  | start => exact ⟨kept, h⟩
  | @step trace t event u hrun hstep ih =>
    -- Nothing was published before the last step either, as it would have stayed.
    have hbefore : t.running.code.tier2.block? = s.running.code.tier2.block? := by
      cases hs : s.running.code.tier2.block? with
      | some tier2 => exact hexclusive.block?_run hrun hs
      | none =>
        refine Option.eq_none_iff_forall_ne_some.mpr fun tier2 ht => ?_
        rw [(hexclusive.run hrun).block?_step hstep ht, hs] at hquiet
        contradiction
    obtain ⟨kept', hserved⟩ := ih hbefore
    exact hserved.step (hguarded.run hrun) (hexclusive.run hrun) hbefore hstep hquiet

/-- Calls for interpreter entries, made at any time on module code and in any order, agree on the
entry of each function as long as no tier is published. Without an eager entry it is a stub, which
is made once, and not at all if the function has one before; with one no stub is asked for. -/
theorem entries_agree {settings : Settings} {symbols : SymbolTable} {parts : ModuleParts}
    {before engine : Engine} {code : ModuleCode} {earlier : List (CallEvent Installer Caller)}
    (hcreate : ModuleCode.create settings symbols parts before = .ok code engine)
    (hreach : Run { running := { engine, code } } earlier s)
    (hreleased : ∀ i, (s.installs i).holds = false)
    (hended : ∀ c, s.entries c = .idle ∨ (s.entries c).ended = true)
    (hrun : Run s trace t)
    (hquiet : t.running.code.tier2.block? = s.running.code.tier2.block?) :
    (∀ c d func first second, s.entries c = .idle → s.entries d = .idle →
      t.entries c = .returned func (.ok first) → t.entries d = .returned func (.ok second) →
        first = second) ∧
    (∀ c func answer, s.entries c = .idle → t.entries c = .returned func (.ok answer) →
      s.running.code.exportOf func = .ok answer.1 ∧
        (answer.1.eagerEntry = none →
          ∃ block ∈ t.running.code.blocks, ModuleCode.StubAddress block func answer.2)) ∧
    (firstStubs trace).Nodup ∧
    (∀ func ∈ firstStubs trace, func ∉ s.running.code.lazyExports.map (·.func)) ∧
    (t.running.code.lazyExports.map (·.func)).Perm
      (firstStubs trace ++ s.running.code.lazyExports.map (·.func)) ∧
    (InstallsOut s t → t.running.code.blocks.length =
      s.running.code.blocks.length + (firstStubs trace).length) ∧
    (∀ func entry index, s.running.code.exportOf func = .ok entry → entry.eagerEntry = some index →
      ∀ call ∈ t.running.code.calls.drop s.running.code.calls.length,
        func ∉ call.requests.map (·.func)) := by
  obtain ⟨habsent, hexports⟩ := (ModuleCode.create_ensures settings symbols parts before).of_ok hcreate
  have hguarded : Guarded ({ running := { engine, code } } : Scene Installer Caller) :=
    guarded_start { engine, code }
  have hexclusive : Exclusive ({ running := { engine, code } } : Scene Installer Caller) :=
    exclusive_start habsent
  have hfiled (hlive : s.lock ≠ .poisoned) : s.running.code.Filed :=
    (Orderly.run (orderly_start habsent hexports) hguarded hexclusive hreach hlive).filed
  obtain ⟨kept, hserved⟩ := (served_start hreleased hended hfiled).run (hguarded.run hreach)
    (hexclusive.run hreach) hrun hquiet
  have hanswer : ∀ {c func answer}, s.entries c = .idle →
      t.entries c = .returned func (.ok answer) → s.running.code.Answers kept func answer := by
    intro c func answer hidle hreturned
    have hright := hserved.right c hidle
    rw [hreturned] at hright
    exact hright answer rfl
  refine ⟨?_, ?_, hserved.grown.nodup, hserved.grown.fresh, ?_, ?_, ?_⟩
  · intro c d func first second hc hd hfirst hsecond
    exact (hanswer hc hfirst).unique (hanswer hd hsecond)
  · intro c func answer hc hreturned
    obtain ⟨hexport, hright⟩ := hanswer hc hreturned
    refine ⟨hexport, fun hlazy => ?_⟩
    rw [hlazy] at hright
    obtain ⟨block, hblock, haddress⟩ := hright.2.stubAddress hright.1
    exact ⟨block, hserved.covers.blocks.subset hblock, haddress⟩
  · rw [hserved.covers.funcs]
    exact hserved.grown.exports
  · intro hout
    obtain ⟨added, hadded, hlength⟩ := hserved.grown.blocks
    rw [(hserved.covers.settled hout).blocks, hadded, List.length_append, hlength]
  · intro func entry index hexport heager call hcall hmem
    obtain ⟨notes, hnotes, hfuncs⟩ := hserved.calls
    rw [hnotes, List.drop_left] at hcall
    have hlacks : s.running.code.LacksEntry func := by
      rcases hfuncs call hcall func hmem with hlacks | ⟨hold, hnone⟩
      · exact hlacks
      · -- The stubs that there are from before have been made for functions without an entry, too.
        have hstart : code.tier2.block? = none := by
          rw [habsent]
          rfl
        have hfirst : ModuleCode.Filed code := ModuleCode.filed_of_nil hexports
        obtain ⟨kept, hserved⟩ := (served_start (fun _ => rfl) (fun _ => .inl rfl)
          fun _ => hfirst).run hguarded hexclusive hreach (hnone.trans hstart.symm)
        rw [hserved.covers.funcs] at hold
        have hmade := hserved.grown.exports.subset hold
        dsimp only at hmade
        rw [hexports, List.map_nil, List.append_nil] at hmade
        obtain ⟨other, hother, hlazy⟩ := hserved.grown.lacks func hmade
        rw [← exportOf_eq hserved.base (hnone.trans hstart.symm)] at hother
        exact ⟨other, hother, hlazy⟩
    obtain ⟨other, hother, hlazy⟩ := hlacks
    obtain rfl : entry = other := Except.ok.inj (hexport.symm.trans hother)
    rw [hlazy] at heager
    contradiction

/-- Of two calls for the entry of a function one makes the stub, and the other one finds it. -/
theorem entries_agree_of_two : ∃ trace, ∃ t : Scene Empty Bool,
    Run { running := ⟨.oneFunction, .oneFunction⟩ } trace t ∧ firstStubs trace = [0] ∧
      ∃ first second, t.entries true = .returned 0 (.ok first) ∧
        t.entries false = .returned 0 (.ok second) ∧ first = second := by
  have run := Run.start (s := ({ running := ⟨.oneFunction, .oneFunction⟩ } : Scene Empty Bool))
  have run := run.step (.beginEntry true 0 rfl)
  have run := run.step (.beginEntry false 0 rfl)
  have run := run.step (.entry true oneByteStubs _ rfl)
  have run := run.step (.entry false oneByteStubs _ rfl)
  have run := run.step (.lockEntry true 0 _ rfl rfl)
  have run := run.step (.entry true oneByteStubs _ rfl)
  have run := run.step (.entry true oneByteStubs _ rfl)
  have run := run.step (.unlockEntry true 0 _ rfl)
  have run := run.step (.lockEntry false 0 _ rfl rfl)
  have run := run.step (.entry false oneByteStubs _ rfl)
  have run := run.step (.unlockEntry false 0 _ rfl)
  have hagree := (entries_agree create_oneFunction .start nofun (fun _ => .inl rfl) run rfl).1
    true false 0 _ _ rfl rfl rfl rfl
  exact ⟨_, _, run, rfl, _, _, rfl, rfl, hagree⟩

end Scene

end CompiledCode

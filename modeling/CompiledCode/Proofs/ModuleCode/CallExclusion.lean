import CompiledCode.Proofs.ModuleCode.CallSteps

/-!
# One install at a time

Who has the lock has it alone, and of all installs at most one is under way or done. The
place of the optimized tier says how far that one is: it is taken as long as an install is
under way, and holds a tier once one is published, for good. An install that is refused
finds another one that was not.
-/

namespace CompiledCode

/-- An updated function has the new value in its place, and is what it was elsewhere. -/
theorem update_self_or_of_ne {ι α : Type} [DecidableEq ι] (f : ι → α) (i : ι) (value : α) (j : ι) :
    j = i ∧ Function.update f i value j = value ∨ Function.update f i value j = f j := by
  by_cases hji : j = i
  · subst hji
    exact .inl ⟨rfl, Function.update_self ..⟩
  · exact .inr (Function.update_of_ne hji ..)

namespace InstallPhase

/-- Whether the call is the one that may install a tier, and has not done so yet. -/
def owns : InstallPhase → Bool
  | begun _ _ _ | built _ _ | locked _ _ | registered _ _ | upgraded _ _ | stopped _ _
  | withdrawn _ | leaving _ => true
  | _ => false

/-- Whether the call has published a tier. -/
def finishes : InstallPhase → Bool
  | published _ _ | redirected | succeeded => true
  | _ => false

/-- Whether the call has begun to install a tier, however it went on. -/
def pursued : InstallPhase → Bool
  | idle | refused => false
  | _ => true

/-- The kind of tier that the call is installing. -/
def kind? : InstallPhase → Option BlockKind
  | begun _ _ compiled => some compiled.kind
  | built _ tier2 | locked _ tier2 | registered _ tier2 | upgraded tier2 _ | published tier2 _
  | stopped tier2 _ => some tier2.kind
  | _ => none

variable {before after : ModuleCode} {phase next : InstallPhase}

/-- No operation takes the lock or gives it back. -/
theorem Leads.holds_eq (h : Leads before after phase next) :
    next.holds = (!next.isPanicked && phase.holds) := by
  cases h <;> rfl

/-- A call that has begun has not been refused. -/
theorem Leads.pursued (h : Leads before after phase next) (hphase : phase.pursued = true) :
    next.pursued = true := by
  cases h <;> first | rfl | contradiction

/-- The parts that are there from the start are what they were. -/
theorem Leads.sameBase (h : Leads before after phase next) : before.SameBase after := by
  cases h with
  | begin _ _ _ h | publish h | giveWay h | refuse _ h | reject h | build _ h | buildFails h
  | nothingToUpgrade _ h =>
    rw [h]
    exact ⟨rfl, rfl, rfl⟩
  | register h | registerFails h | withdraw h | panicWithdrawing h | upgrade _ _ h =>
    exact ⟨(congrArg ModuleCode.sharedStubs h :), (congrArg ModuleCode.tier1 h :),
      (congrArg ModuleCode.imports h :)⟩
  | upgradeFails h | redirect h | panic _ h =>
    obtain ⟨_, _, _, h⟩ := h
    exact ⟨(congrArg ModuleCode.sharedStubs h :), (congrArg ModuleCode.tier1 h :),
      (congrArg ModuleCode.imports h :)⟩

/-- Who gives the lock back has had it, and does not have it then. -/
theorem holds_of_unlocked? (h : phase.unlocked? = some next) :
    phase.holds = true ∧ next.holds = false := by
  cases phase <;> cases h <;> exact ⟨rfl, rfl⟩

/-- Whether a call goes on without changing the place of the optimized tier, which is given. -/
structure GoesOn (tier2 : OptimizedTier) (phase next : InstallPhase) : Prop where
  /-- Only an owner of the place owns it then. -/
  owns : next.owns = true → phase.owns = true
  /-- Only a call that has published a tier has done so then. -/
  finishes : next.finishes = true → phase.finishes = true
  /-- The kind of the tier stays. -/
  kind : ∀ kind, next.kind? = some kind → phase.kind? = some kind
  /-- A call that has begun has not been refused. -/
  pursued : phase.pursued = true → next.pursued = true
  /-- A call is refused only if the place is taken. -/
  refused : next = refused → tier2 ≠ .absent

/-- How an operation changes the place of the optimized tier. -/
inductive PlaceChange (before after : ModuleCode) : InstallPhase → InstallPhase → Prop where
  | taken {compiler : QuietCompiler} {plan : PatchPlan} {compiled : CompiledBlock}
      (hbefore : before.tier2 = .absent) (hafter : after.tier2 = .building)
      (hbaseline : before.tier1.kind = .baselineTier)
      (hoptimized : compiled.kind = .optimizedTier) :
      PlaceChange before after idle (begun compiler plan compiled)
  | filled {tier2 : Block} {stubIndex : Option Nat} (hafter : after.tier2 = .published tier2) :
      PlaceChange before after (upgraded tier2 stubIndex) (published tier2 stubIndex)
  | left {failure : Failure} (hafter : after.tier2 = .absent) :
      PlaceChange before after (leaving failure) (failed failure)
  | none {phase next : InstallPhase} (hafter : after.tier2 = before.tier2)
      (hgoes : GoesOn before.tier2 phase next) : PlaceChange before after phase next

/-- Every operation changes the place of the optimized tier in one of these ways. -/
theorem Leads.placeChange (h : Leads before after phase next) :
    PlaceChange before after phase next := by
  have hpursued := h.pursued
  cases h with
  | begin hbaseline hoptimized habsent h =>
    exact .taken habsent (by rw [h]; rfl) hbaseline hoptimized
  | publish h => exact .filled (by rw [h]; rfl)
  | giveWay h => exact .left (by rw [h]; rfl)
  | refuse hpresent h => exact .none (by rw [h]) ⟨nofun, nofun, nofun, hpursued, fun _ => hpresent⟩
  | reject h => exact .none (by rw [h]) ⟨nofun, nofun, nofun, hpursued, nofun⟩
  | build hkind h =>
    exact .none (by rw [h]) ⟨fun _ => rfl, nofun, fun _ hnext => by rw [← hnext, kind?, kind?, hkind],
      hpursued, nofun⟩
  | buildFails h => exact .none (by rw [h]) ⟨fun _ => rfl, nofun, nofun, hpursued, nofun⟩
  | nothingToUpgrade _ h =>
    exact .none (by rw [h]) ⟨fun _ => rfl, nofun, fun _ => id, hpursued, nofun⟩
  | register h | upgrade _ _ h =>
    exact .none (congrArg ModuleCode.tier2 h :) ⟨fun _ => rfl, nofun, fun _ => id, hpursued, nofun⟩
  | registerFails h | withdraw h =>
    exact .none (congrArg ModuleCode.tier2 h :) ⟨fun _ => rfl, nofun, nofun, hpursued, nofun⟩
  | panicWithdrawing h =>
    exact .none (congrArg ModuleCode.tier2 h :) ⟨nofun, nofun, nofun, hpursued, nofun⟩
  | upgradeFails h =>
    obtain ⟨_, _, _, h⟩ := h
    exact .none (congrArg ModuleCode.tier2 h :) ⟨fun _ => rfl, nofun, fun _ => id, hpursued, nofun⟩
  | redirect h =>
    obtain ⟨_, _, _, h⟩ := h
    exact .none (congrArg ModuleCode.tier2 h :) ⟨nofun, fun _ => rfl, nofun, hpursued, nofun⟩
  | panic _ h =>
    obtain ⟨_, _, _, h⟩ := h
    exact .none (congrArg ModuleCode.tier2 h :) ⟨nofun, nofun, nofun, hpursued, nofun⟩

/-- A call that gives the lock back leaves the place of the optimized tier as it is. -/
theorem goesOn_of_unlocked? (h : phase.unlocked? = some next) (tier2 : OptimizedTier) :
    GoesOn tier2 phase next := by
  cases phase <;> cases h
  · exact ⟨nofun, fun _ => rfl, nofun, fun _ => rfl, nofun⟩
  · exact ⟨fun _ => rfl, nofun, nofun, fun _ => rfl, nofun⟩

end InstallPhase

namespace EntryPhase

variable {compiler : Option QuietCompiler} {before after : ModuleCode} {phase next : EntryPhase}

/-- No operation takes the lock or gives it back. -/
theorem Leads.holds_eq (h : Leads compiler before after phase next) :
    next.holds = (!next.isPanicked && phase.holds) := by
  cases h <;> rfl

/-- The parts that are there from the start are what they were. -/
theorem Leads.sameBase (h : Leads compiler before after phase next) : before.SameBase after := by
  cases h with
  | eager _ _ _ h | read _ _ h | hint h | noHint h | lookFinds _ h | lookMisses h | find _ h
  | miss h | panic h =>
    rw [h]
    exact ⟨rfl, rfl, rfl⟩
  | make _ _ _ _ h _ | panicMade _ _ _ h => exact (ModuleCode.frame_of_withStub h).1
  | fail h | panicAttempting h =>
    rcases h with h | ⟨_, _, h⟩ <;>
      exact ⟨(congrArg ModuleCode.sharedStubs h :), (congrArg ModuleCode.tier1 h :),
        (congrArg ModuleCode.imports h :)⟩

/-- The place of the optimized tier is what it was. -/
theorem Leads.tier2_eq (h : Leads compiler before after phase next) : after.tier2 = before.tier2 := by
  cases h with
  | eager _ _ _ h | read _ _ h | hint h | noHint h | lookFinds _ h | lookMisses h | find _ h
  | miss h | panic h => rw [h]
  | make _ _ _ _ h _ | panicMade _ _ _ h => exact (ModuleCode.frame_of_withStub h).2
  | fail h | panicAttempting h =>
    rcases h with h | ⟨_, _, h⟩ <;> exact (congrArg ModuleCode.tier2 h :)

end EntryPhase

namespace Scene

variable {Installer Caller : Type} [DecidableEq Installer] [DecidableEq Caller]
  {s t : Scene Installer Caller} {event : CallEvent Installer Caller}

omit [DecidableEq Installer] [DecidableEq Caller] in
/-- Whether the lock knows everyone who has it. -/
structure Guarded (s : Scene Installer Caller) : Prop where
  /-- An install that has the lock is the one. -/
  install : ∀ i, (s.installs i).holds = true → s.lock = .installer i
  /-- A call for an entry that has the lock is the one. -/
  entry : ∀ c, (s.entries c).holds = true → s.lock = .caller c

omit [DecidableEq Installer] [DecidableEq Caller] in
/-- With the lock free nobody has it. -/
theorem Guarded.of_free (h : Guarded s) (hfree : s.lock = .free) :
    (∀ i, (s.installs i).holds = false) ∧ ∀ c, (s.entries c).holds = false := by
  constructor
  · intro i
    rw [← Bool.not_eq_true]
    intro hi
    rw [h.install i hi] at hfree
    contradiction
  · intro c
    rw [← Bool.not_eq_true]
    intro hc
    rw [h.entry c hc] at hfree
    contradiction

omit [DecidableEq Installer] [DecidableEq Caller] in
/-- An install that has the lock has it alone. -/
theorem Guarded.of_install (h : Guarded s) {i : Installer} (hi : (s.installs i).holds = true) :
    (∀ j, j ≠ i → (s.installs j).holds = false) ∧ ∀ c, (s.entries c).holds = false := by
  have hlock := h.install i hi
  constructor
  · intro j hne
    rw [← Bool.not_eq_true]
    intro hj
    rw [h.install j hj] at hlock
    exact hne (Lock.installer.inj hlock)
  · intro c
    rw [← Bool.not_eq_true]
    intro hc
    rw [h.entry c hc] at hlock
    contradiction

omit [DecidableEq Installer] [DecidableEq Caller] in
/-- A call for an entry that has the lock has it alone. -/
theorem Guarded.of_entry (h : Guarded s) {c : Caller} (hc : (s.entries c).holds = true) :
    (∀ i, (s.installs i).holds = false) ∧ ∀ d, d ≠ c → (s.entries d).holds = false := by
  have hlock := h.entry c hc
  constructor
  · intro i
    rw [← Bool.not_eq_true]
    intro hi
    rw [h.install i hi] at hlock
    contradiction
  · intro d hne
    rw [← Bool.not_eq_true]
    intro hd
    rw [h.entry d hd] at hlock
    exact hne (Lock.caller.inj hlock)

omit [DecidableEq Installer] [DecidableEq Caller] in
/-- A lock that a call for an entry has is not useless. -/
theorem Guarded.live_of_entry (h : Guarded s) {c : Caller} (hc : (s.entries c).holds = true) :
    s.lock ≠ .poisoned := by
  rw [h.entry c hc]
  nofun

omit [DecidableEq Caller] in
/-- With one install moved on, the lock is still known if it is to that install and the others. -/
theorem Guarded.setInstall (h : Guarded s) {i : Installer} {next : InstallPhase}
    {lock : Lock Installer Caller} {running : Running}
    (hnext : next.holds = true → lock = .installer i)
    (hothers : ∀ j, j ≠ i → (s.installs j).holds = true → lock = s.lock)
    (hentries : ∀ c, (s.entries c).holds = true → lock = s.lock) :
    Guarded { s with running, lock, installs := Function.update s.installs i next } where
  install j hj := by
    by_cases hji : j = i
    · subst hji
      simp only [Function.update_self] at hj
      exact hnext hj
    · simp only [Function.update_of_ne hji] at hj
      exact (hothers j hji hj).trans (h.install j hj)
  entry c hc := (hentries c hc).trans (h.entry c hc)

omit [DecidableEq Installer] in
/-- With one call for an entry moved on, the lock is still known if it is to that and the others. -/
theorem Guarded.setEntry (h : Guarded s) {c : Caller} {next : EntryPhase}
    {lock : Lock Installer Caller} {running : Running}
    (hnext : next.holds = true → lock = .caller c)
    (hinstalls : ∀ i, (s.installs i).holds = true → lock = s.lock)
    (hothers : ∀ d, d ≠ c → (s.entries d).holds = true → lock = s.lock) :
    Guarded { s with running, lock, entries := Function.update s.entries c next } where
  install i hi := (hinstalls i hi).trans (h.install i hi)
  entry d hd := by
    by_cases hdc : d = c
    · subst hdc
      simp only [Function.update_self] at hd
      exact hnext hd
    · simp only [Function.update_of_ne hdc] at hd
      exact (hothers d hdc hd).trans (h.entry d hd)

/-- Steps keep the lock with those who have it. -/
theorem Guarded.step (h : Guarded s) (hstep : Step s event t) : Guarded t := by
  cases hstep.effect with
  | install i next running hleads =>
    have hholds := hleads.holds_eq
    cases hpanic : next.isPanicked with
    | false =>
      rw [hpanic, Bool.not_false, Bool.true_and] at hholds
      rw [moveInstall, hpanic, Bool.false_and, if_neg Bool.false_ne_true]
      exact h.setInstall (fun hnext => h.install i (hholds ▸ hnext)) (fun _ _ _ => rfl)
        (fun _ _ => rfl)
    | true =>
      rw [hpanic, Bool.not_true, Bool.false_and] at hholds
      rw [moveInstall, hpanic, Bool.true_and]
      cases hi : (s.installs i).holds with
      | false =>
        rw [if_neg Bool.false_ne_true]
        exact h.setInstall (by simp [hholds]) (fun _ _ _ => rfl) (fun _ _ => rfl)
      | true =>
        obtain ⟨hothers, hentries⟩ := h.of_install hi
        exact h.setInstall (by simp [hholds]) (fun j hne => by simp [hothers j hne])
          (fun c => by simp [hentries c])
  | lockInstall i compiler tier2 hbuilt hfree =>
    obtain ⟨hinstalls, hentries⟩ := h.of_free hfree
    exact h.setInstall (fun _ => rfl) (fun j _ => by simp [hinstalls j])
      (fun c => by simp [hentries c])
  | poisonInstall i compiler tier2 hbuilt =>
    exact h.setInstall nofun (fun _ _ _ => rfl) (fun _ _ => rfl)
  | unlockInstall i next hnext =>
    obtain ⟨hi, hnext⟩ := InstallPhase.holds_of_unlocked? hnext
    obtain ⟨hothers, hentries⟩ := h.of_install hi
    exact h.setInstall (by simp [hnext]) (fun j hne => by simp [hothers j hne])
      (fun c => by simp [hentries c])
  | entry c compiler next running hshared hleads =>
    have hholds := hleads.holds_eq
    cases hpanic : next.isPanicked with
    | false =>
      rw [hpanic, Bool.not_false, Bool.true_and] at hholds
      rw [moveEntry, hpanic, Bool.false_and, if_neg Bool.false_ne_true]
      exact h.setEntry (fun hnext => h.entry c (hholds ▸ hnext)) (fun _ _ => rfl)
        (fun _ _ _ => rfl)
    | true =>
      rw [hpanic, Bool.not_true, Bool.false_and] at hholds
      rw [moveEntry, hpanic, Bool.true_and]
      cases hc : (s.entries c).holds with
      | false =>
        rw [if_neg Bool.false_ne_true]
        exact h.setEntry (by simp [hholds]) (fun _ _ => rfl) (fun _ _ _ => rfl)
      | true =>
        obtain ⟨hinstalls, hothers⟩ := h.of_entry hc
        exact h.setEntry (by simp [hholds]) (fun i => by simp [hinstalls i])
          (fun d hne => by simp [hothers d hne])
  | lockEntry c func found hwaiting hfree =>
    obtain ⟨hinstalls, hentries⟩ := h.of_free hfree
    exact h.setEntry (fun _ => rfl) (fun i => by simp [hinstalls i])
      (fun d _ => by simp [hentries d])
  | poisonEntry c => exact h.setEntry nofun (fun _ _ => rfl) (fun _ _ _ => rfl)
  | unlockEntry c func result hleaving =>
    obtain ⟨hinstalls, hothers⟩ := h.of_entry (c := c) (by rw [hleaving]; rfl)
    exact h.setEntry nofun (fun i => by simp [hinstalls i])
      (fun d hne => by simp [hothers d hne])
  | outside engine dispatch => exact ⟨h.install, h.entry⟩

omit [DecidableEq Installer] [DecidableEq Caller] in
/-- Whether one install at most is under way or done, as the place of the tier says. -/
structure Exclusive (s : Scene Installer Caller) : Prop where
  /-- The place of the tier is taken as long as an install is under way. -/
  building : ∀ i, (s.installs i).owns = true → s.running.code.tier2 = .building
  /-- The place of the tier is filled once an install has published one. -/
  published : ∀ i, (s.installs i).finishes = true → ∃ tier2, s.running.code.tier2 = .published tier2
  /-- No two installs are under way or done. -/
  once : ∀ i j, (s.installs i).owns = true ∨ (s.installs i).finishes = true →
    (s.installs j).owns = true ∨ (s.installs j).finishes = true → i = j
  /-- The place of the tier is not taken, and no install refused, without one that has begun. -/
  pursued : s.running.code.tier2 ≠ .absent ∨ (∃ i, s.installs i = .refused) →
    ∃ i, (s.installs i).pursued = true
  /-- An optimized tier is installed over a baseline tier. -/
  kind : ∀ i kind, (s.installs i).kind? = some kind →
    kind = .optimizedTier ∧ s.running.code.tier1.kind = .baselineTier
  /-- An optimized tier is published over a baseline tier. -/
  publishedKind : ∀ tier2, s.running.code.tier2 = .published tier2 →
    tier2.kind = .optimizedTier ∧ s.running.code.tier1.kind = .baselineTier

omit [DecidableEq Installer] [DecidableEq Caller] in
/-- No tier is published as long as an install is under way. -/
theorem Exclusive.unpublished (h : Exclusive s) {i : Installer} (hi : (s.installs i).owns = true) :
    s.running.code.tier2.block? = none := by
  rw [h.building i hi]
  rfl

omit [DecidableEq Installer] [DecidableEq Caller] in
/-- What changes neither the tiers nor an install keeps installs apart. -/
theorem Exclusive.congr (h : Exclusive s) (htier1 : t.running.code.tier1 = s.running.code.tier1)
    (htier2 : t.running.code.tier2 = s.running.code.tier2) (hinstalls : t.installs = s.installs) :
    Exclusive t := by
  constructor <;> simp only [htier1, htier2, hinstalls]
  · exact h.building
  · exact h.published
  · exact h.once
  · exact h.pursued
  · exact h.kind
  · exact h.publishedKind

omit [DecidableEq Caller] in
/-- An install that goes on without changing the place of the tier keeps installs apart. -/
theorem Exclusive.goesOn (h : Exclusive s) {i : Installer} {next : InstallPhase}
    (hgoes : InstallPhase.GoesOn s.running.code.tier2 (s.installs i) next)
    (htier1 : t.running.code.tier1 = s.running.code.tier1)
    (htier2 : t.running.code.tier2 = s.running.code.tier2)
    (hinstalls : t.installs = Function.update s.installs i next) : Exclusive t := by
  have hmoved : ∀ j, j = i ∧ t.installs j = next ∨ t.installs j = s.installs j := by
    intro j
    rw [hinstalls]
    exact update_self_or_of_ne s.installs i next j
  have howns : ∀ j, (t.installs j).owns = true → (s.installs j).owns = true := by
    intro j hj
    rcases hmoved j with ⟨rfl, hnext⟩ | hsame
    · exact hgoes.owns (hnext ▸ hj)
    · exact hsame ▸ hj
  have hfinishes : ∀ j, (t.installs j).finishes = true → (s.installs j).finishes = true := by
    intro j hj
    rcases hmoved j with ⟨rfl, hnext⟩ | hsame
    · exact hgoes.finishes (hnext ▸ hj)
    · exact hsame ▸ hj
  have hkind : ∀ j kind, (t.installs j).kind? = some kind → (s.installs j).kind? = some kind := by
    intro j kind hj
    rcases hmoved j with ⟨rfl, hnext⟩ | hsame
    · exact hgoes.kind kind (hnext ▸ hj)
    · exact hsame ▸ hj
  have hpursued : ∀ j, (s.installs j).pursued = true → (t.installs j).pursued = true := by
    intro j hj
    rcases hmoved j with ⟨rfl, hnext⟩ | hsame
    · exact hnext ▸ hgoes.pursued hj
    · exact hsame ▸ hj
  have hrefused : ∀ j, t.installs j = .refused →
      s.running.code.tier2 ≠ .absent ∨ ∃ i, s.installs i = .refused := by
    intro j hj
    rcases hmoved j with ⟨rfl, hnext⟩ | hsame
    · exact .inl (hgoes.refused (hnext ▸ hj))
    · exact .inr ⟨j, hsame ▸ hj⟩
  constructor
  · intro j hj
    rw [htier2]
    exact h.building j (howns j hj)
  · intro j hj
    rw [htier2]
    exact h.published j (hfinishes j hj)
  · intro j k hj hk
    exact h.once j k (hj.imp (howns j) (hfinishes j)) (hk.imp (howns k) (hfinishes k))
  · intro ht
    have hs : s.running.code.tier2 ≠ .absent ∨ ∃ i, s.installs i = .refused := by
      rcases ht with ht | ⟨j, hj⟩
      · exact .inl (htier2 ▸ ht)
      · exact hrefused j hj
    obtain ⟨j, hj⟩ := h.pursued hs
    exact ⟨j, hpursued j hj⟩
  · intro j kind hj
    rw [htier1]
    exact h.kind j kind (hkind j kind hj)
  · rw [htier1, htier2]
    exact h.publishedKind

omit [DecidableEq Installer] [DecidableEq Caller] in
/-- With the place of the tier free no install is under way or done. -/
theorem Exclusive.of_absent (h : Exclusive s) (habsent : s.running.code.tier2 = .absent)
    (i : Installer) : (s.installs i).owns = false ∧ (s.installs i).finishes = false := by
  constructor
  · rw [← Bool.not_eq_true]
    intro hi
    have hbuilding := h.building i hi
    rw [habsent] at hbuilding
    contradiction
  · rw [← Bool.not_eq_true]
    intro hi
    obtain ⟨tier2, hpublished⟩ := h.published i hi
    rw [habsent] at hpublished
    contradiction

omit [DecidableEq Installer] [DecidableEq Caller] in
/-- An install that is under way is the only one. -/
theorem Exclusive.of_owns (h : Exclusive s) {i : Installer} (hi : (s.installs i).owns = true)
    {j : Installer} (hne : j ≠ i) :
    (s.installs j).owns = false ∧ (s.installs j).finishes = false := by
  constructor
  · rw [← Bool.not_eq_true]
    intro hj
    exact hne (h.once j i (.inl hj) (.inl hi))
  · rw [← Bool.not_eq_true]
    intro hj
    exact hne (h.once j i (.inr hj) (.inl hi))

omit [DecidableEq Caller] in
/-- When one install moves on and no other is under way or done, it may take, fill or leave the
place of the tier. -/
theorem Exclusive.replace (h : Exclusive s) {i : Installer} {next : InstallPhase}
    (hothers : ∀ j, j ≠ i → (s.installs j).owns = false ∧ (s.installs j).finishes = false)
    (htier1 : t.running.code.tier1 = s.running.code.tier1)
    (hinstalls : t.installs = Function.update s.installs i next)
    (howns : next.owns = true → t.running.code.tier2 = .building)
    (hfinishes : next.finishes = true → ∃ tier2, t.running.code.tier2 = .published tier2)
    (hpursued : next.pursued = true)
    (hkind : ∀ kind, next.kind? = some kind →
      kind = .optimizedTier ∧ s.running.code.tier1.kind = .baselineTier)
    (hpublished : ∀ tier2, t.running.code.tier2 = .published tier2 →
      tier2.kind = .optimizedTier ∧ s.running.code.tier1.kind = .baselineTier) :
    Exclusive t := by
  have honly : ∀ j, (t.installs j).owns = true ∨ (t.installs j).finishes = true → j = i := by
    intro j hj
    by_cases hji : j = i
    · exact hji
    · rw [hinstalls, Function.update_of_ne hji, (hothers j hji).1, (hothers j hji).2] at hj
      rcases hj with hj | hj <;> contradiction
  have hself : t.installs i = next := by rw [hinstalls, Function.update_self]
  constructor
  · intro j hj
    obtain rfl := honly j (.inl hj)
    exact howns (hself ▸ hj)
  · intro j hj
    obtain rfl := honly j (.inr hj)
    exact hfinishes (hself ▸ hj)
  · intro j k hj hk
    rw [honly j hj, honly k hk]
  · intro _
    exact ⟨i, hself ▸ hpursued⟩
  · intro j kind hj
    rw [htier1]
    rw [hinstalls] at hj
    rcases update_self_or_of_ne s.installs i next j with ⟨rfl, hnext⟩ | hsame
    · exact hkind kind (hnext ▸ hj)
    · exact h.kind j kind (hsame ▸ hj)
  · rw [htier1]
    exact hpublished

/-- Steps keep installs apart. -/
theorem Exclusive.step (h : Exclusive s) (hstep : Step s event t) : Exclusive t := by
  cases hstep.effect with
  | install i next running hleads =>
    have htier1 := hleads.sameBase.tier1
    generalize hphase : s.installs i = phase at hleads
    cases hleads.placeChange with
    | taken hbefore hafter hbaseline hoptimized =>
      refine h.replace (fun j _ => h.of_absent hbefore j) htier1 rfl (fun _ => hafter) nofun rfl
        (fun kind hkind => ⟨Option.some.inj hkind ▸ hoptimized, hbaseline⟩) fun tier2 htier2 => ?_
      cases hafter.symm.trans htier2
    | filled hafter =>
      have howns : (s.installs i).owns = true := by rw [hphase]; rfl
      have hkind := h.kind i _ (by rw [hphase]; rfl)
      refine h.replace (fun j hne => h.of_owns howns hne) htier1 rfl nofun (fun _ => ⟨_, hafter⟩) rfl
        (fun kind hnext => Option.some.inj hnext ▸ hkind) fun tier2 htier2 => ?_
      cases hafter.symm.trans htier2
      exact hkind
    | left hafter =>
      have howns : (s.installs i).owns = true := by rw [hphase]; rfl
      refine h.replace (fun j hne => h.of_owns howns hne) htier1 rfl nofun nofun rfl nofun
        fun tier2 htier2 => ?_
      cases hafter.symm.trans htier2
    | none hafter hgoes => exact h.goesOn (hphase ▸ hgoes) htier1 hafter rfl
  | lockInstall i compiler tier2 hbuilt hfree =>
    refine h.goesOn (i := i) ?_ rfl rfl rfl
    rw [hbuilt]
    exact ⟨fun _ => rfl, nofun, fun _ => id, fun _ => rfl, nofun⟩
  | poisonInstall i compiler tier2 hbuilt =>
    refine h.goesOn (i := i) ?_ rfl rfl rfl
    rw [hbuilt]
    exact ⟨nofun, nofun, nofun, fun _ => rfl, nofun⟩
  | unlockInstall i next hnext =>
    exact h.goesOn (InstallPhase.goesOn_of_unlocked? hnext _) rfl rfl rfl
  | entry c compiler next running hshared hleads => exact h.congr hleads.sameBase.tier1 hleads.tier2_eq rfl
  | lockEntry | poisonEntry | unlockEntry => exact h.congr rfl rfl rfl
  | outside => exact h.congr rfl rfl rfl

end Scene

end CompiledCode

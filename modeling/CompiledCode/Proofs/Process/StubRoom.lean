import CompiledCode.Proofs.ModuleCode.Batches
import CompiledCode.Proofs.ModuleCode.Frugal
import CompiledCode.Proofs.Process.Failure
import CompiledCode.Stubs.Layout

/-!
# Room for entry stubs that is lost

Room in the segments for entry stubs is claimed from the front to the back and never given back. A call
that fails before the claim leaves every segment as it was. If it fails later then what it has claimed
for its stubs, in whole pages, stays in use for good, of the last segment or of one that has been made
for it.

A segment without memory has no room to lose, so that nothing is said of how much is in use of it.
-/

namespace CompiledCode

/-- Whether as much is in use of every mapping as before. -/
def Memory.SameUse (before after : Memory) : Prop :=
  ∀ mapping ∈ before.mapped, after.inUse mapping.1 = before.inUse mapping.1

/-- Whether as much is in use of segments as before, as far as they have memory. -/
def Memory.SameLengths (segments : List Segment) (before after : Memory) : Prop :=
  ∀ segment ∈ segments, 0 < segment.capacity → segment.length after = segment.length before

/-- Segments that have their memory stay in use as mappings do. -/
theorem Memory.SameUse.lengths {before after : Memory} (h : before.SameUse after)
    {segments : List Segment} (hbacked : ∀ segment ∈ segments, before.Backs segment) :
    SameLengths segments before after := by
  intro segment hin hsome
  exact h _ ((hbacked segment hin).resolve_left (Nat.ne_of_gt hsome))

namespace Segment

variable {memory : Memory}

/-- Getting memory uses none of it yet. -/
theorem obtain_inUse (bytes : Nat) :
    (obtain bytes).Ensures memory (fun _ after => after.inUse = memory.inUse)
      (fun _ after => after.inUse = memory.inUse) := by
  refine obtain_ensures_of (fun _ _ => rfl) (fun _ => rfl) fun capacity _ _ => ?_
  rw [Memory.map, Op.ensures_bind, Op.ensures_get]
  split
  · rw [Op.ensures_bind, Op.ensures_set, Op.ensures_pure]
  · rw [Op.ensures_bind, Op.ensures_set]
    exact (Op.ensures_fail _).mpr rfl

/-- A segment that is reserved is a fresh one with enough room, of which nothing is in use. -/
theorem reserve_room (hsound : memory.Sound) (bytes : Nat) :
    (reserve bytes).Ensures memory
      (fun segment after => memory.Fresh segment ∧ bytes ≤ segment.capacity ∧
        segment.length after = 0 ∧ memory.SameUse after)
      (fun _ after => memory.SameUse after) := by
  refine ((obtain_ensures hsound bytes).and (obtain_inUse bytes)).bind (fun segment after hafter => ?_)
    (fun _ _ h mapping _ => congrFun h.2 mapping.1)
  obtain ⟨⟨-, -, hfresh, hbytes⟩, hinUse⟩ := hafter
  rw [Op.ensures_bind, Op.ensures_modify, Op.ensures_pure]
  refine ⟨hfresh, hbytes, if_pos rfl, fun mapping hin => ?_⟩
  exact (if_neg (hfresh.base_ne mapping hin)).trans (congrFun hinUse mapping.1)

/-- Code that is placed has a segment of its own, and takes no room elsewhere. -/
theorem place_sameUse (hsound : memory.Sound) (code : Bytes) (plan : PatchPlan) (symbols : SymbolTable)
    (trapHandler : Option UInt64) :
    (place code plan symbols trapHandler).Ensures memory (fun _ after => memory.SameUse after)
      (fun _ after => memory.SameUse after) := by
  refine place_ensures_of (fun _ _ _ _ => rfl)
    (fun needed _ => ((obtain_ensures hsound needed).and (obtain_inUse needed)).mono (fun _ _ h => h)
      fun _ _ h mapping _ => congrFun h.2 mapping.1)
    fun needed segment after _ hafter => ?_
  obtain ⟨⟨-, -, hfresh, -⟩, hinUse⟩ := hafter
  have hused : memory.SameUse (after.setInUse segment.base needed) := fun mapping hin =>
    (if_neg (hfresh.base_ne mapping hin)).trans (congrFun hinUse mapping.1)
  refine (segment.frugal_install _ _ _ _ _).ensures
    (fun _ last hlast mapping hin => ?_) (fun _ last hlast _ mapping hin => ?_)
  all_goals exact (congrFun hlast mapping.1).trans (hused mapping hin)

/-- Room is claimed where it is left. -/
theorem claim_room {segment : Segment} {bytes : Nat} (hfits : segment.fits memory bytes = true) :
    (segment.claim bytes).Ensures memory
      (fun _ after => after = memory.setInUse segment.base (segment.length memory + bytes) ∧
        bytes ≤ segment.capacity ∧ segment.length memory + bytes ≤ segment.capacity)
      (fun _ _ => False) := by
  refine claim_ensures_of (fun _ => ?_) fun hfull => ?_
  · rw [fits, Bool.and_eq_true, decide_eq_true_eq, decide_eq_true_eq] at hfits
    exact ⟨rfl, hfits.1, by omega⟩
  · rw [hfits] at hfull
    contradiction

end Segment

/-- A block that is placed takes no room elsewhere. -/
theorem Block.place_sameUse {memory : Memory} (hsound : memory.Sound) (compiled : CompiledBlock)
    (plan : PatchPlan) (symbols : SymbolTable) (shared : Option Block) :
    (place compiled plan symbols shared).Ensures memory (fun _ after => memory.SameUse after)
      (fun _ after => memory.SameUse after) := by
  refine (Segment.place_sameUse hsound ..).during.bind (fun segment middle hmiddle => ?_) (fun _ _ h => h)
  have hframe : ((do
      let block ← make compiled.kind segment 0 compiled.code.length compiled.tables
      if compiled.kind = .sharedStubs then
        return { block with trapCode := some (segment.base + plan.trapOffset) }
      else
        return block) : Op Memory Block).Frugal Memory.inUse := by
    refine (Block.frugal_make _ _ _ _ _).bind fun block => ?_
    split <;> exact Op.frugal_pure _
  refine hframe.ensures (fun _ after hafter mapping hin => ?_) (fun _ after hafter _ mapping hin => ?_)
  all_goals exact (congrFun hafter mapping.1).trans (hmiddle mapping hin)

/-- Whether the segments for entry stubs lie apart from each other, as far as they have memory, and none
at address zero. -/
structure ModuleCode.Roomy (code : ModuleCode) : Prop where
  positive : ∀ segment ∈ code.lazySegments, 0 < segment.base
  distinct : code.lazySegments.Pairwise fun a b => 0 < a.capacity → a.base ≠ b.base

namespace Running

/-- Whether there are the segments for entry stubs that there were, with as much in use. -/
structure SameRoom (s t : Running) : Prop where
  segments : t.code.lazySegments = s.code.lazySegments
  lengths : Memory.SameLengths s.code.lazySegments s.engine.memory t.engine.memory

/-- Whether `bytes` bytes more are in use of the last segment for entry stubs, which may be a new one,
and as much as before of the others. -/
inductive SpendsRoom (s : Running) (last : Segment) (bytes : Nat) (t : Running) : Prop where
  /-- There is room in the last segment that there was. -/
  | reused {earlier : List Segment} (hbefore : s.code.lazySegments = earlier ++ [last])
      (hafter : t.code.lazySegments = s.code.lazySegments) (hfits : bytes ≤ last.capacity)
      (hlast : 0 < last.capacity →
        last.length t.engine.memory = last.length s.engine.memory + bytes ∧
          last.length t.engine.memory ≤ last.capacity)
      (hothers : Memory.SameLengths earlier s.engine.memory t.engine.memory)
  /-- The last segment is a new one. -/
  | reserved (hafter : t.code.lazySegments = s.code.lazySegments ++ [last])
      (hpositive : 0 < last.base)
      (hdistinct : ∀ segment ∈ s.code.lazySegments, 0 < segment.capacity → segment.base ≠ last.base)
      (hfits : bytes ≤ last.capacity) (hlast : last.length t.engine.memory = bytes)
      (hothers : Memory.SameLengths s.code.lazySegments s.engine.memory t.engine.memory)

variable {s t u : Running} {since : Memory} {placed : List Block} {others : List ModuleCode}
  {compiler : StubCompiler} {tier : Block} {requests : List StubRequest} {stubs : CompiledStubs}
  {last : Segment} {bytes : Nat}

theorem SameRoom.refl (s : Running) : s.SameRoom s := ⟨rfl, fun _ _ _ => rfl⟩

/-- Nothing is lost one time after another. -/
theorem SameRoom.trans (h : s.SameRoom t) (h' : t.SameRoom u) : s.SameRoom u where
  segments := h'.segments.trans h.segments
  lengths segment hin hsome :=
    (h'.lengths segment (h.segments ▸ hin) hsome).trans (h.lengths segment hin hsome)

/-- What a frugal operation leaves has as much room. -/
theorem SameRoom.of_room (h : t.room = s.room) : s.SameRoom t where
  segments := congrArg Prod.fst h
  lengths segment _ _ := congrFun (congrArg Prod.snd h) segment.base

/-- A change that no index takes part in takes no room. -/
theorem SameIndexes.sameRoom (h : s.SameIndexes t) : s.SameRoom t where
  segments := h.segments
  lengths _ _ _ := by rw [h.engine]

/-- Room is spent whatever comes before that takes none. -/
theorem SpendsRoom.of_sameRoom (h : s.SameRoom t) (hspends : t.SpendsRoom last bytes u) :
    s.SpendsRoom last bytes u := by
  cases hspends with
  | @reused earlier hbefore hafter hfits hlast hothers =>
    rw [h.segments] at hbefore hafter
    have hall := hbefore ▸ h.lengths
    refine .reused hbefore hafter hfits (fun hsome => ?_) fun segment hin hsome => ?_
    · rw [← hall last (List.mem_append_right _ List.mem_cons_self) hsome]
      exact hlast hsome
    · rw [hothers segment hin hsome]
      exact hall segment (List.mem_append_left _ hin) hsome
  | reserved hafter hpositive hdistinct hfits hlast hothers =>
    rw [h.segments] at hafter hdistinct hothers
    exact .reserved hafter hpositive hdistinct hfits hlast fun segment hin hsome =>
      (hothers segment hin hsome).trans (h.lengths segment hin hsome)

/-- Room that is spent stays spent whatever comes after that takes none. -/
theorem SpendsRoom.of_room (h : s.SpendsRoom last bytes t) (hroom : u.room = t.room) :
    s.SpendsRoom last bytes u := by
  have hsegments : u.code.lazySegments = t.code.lazySegments := congrArg Prod.fst hroom
  have hlength (segment : Segment) : segment.length u.engine.memory = segment.length t.engine.memory :=
    congrFun (congrArg Prod.snd hroom) segment.base
  cases h with
  | reused hbefore hafter hfits hlast hothers =>
    refine .reused hbefore (hsegments.trans hafter) hfits (fun hsome => ?_) fun segment hin hsome => ?_
    · rw [hlength]
      exact hlast hsome
    · rw [hlength]
      exact hothers segment hin hsome
  | reserved hafter hpositive hdistinct hfits hlast hothers =>
    refine .reserved (hsegments.trans hafter) hpositive hdistinct hfits ((hlength _).trans hlast)
      fun segment hin hsome => ?_
    rw [hlength]
    exact hothers segment hin hsome

/-- Segments for entry stubs lie apart from each other, whatever room is spent. -/
theorem SpendsRoom.roomy (h : s.SpendsRoom last bytes t) (hroomy : s.code.Roomy) : t.code.Roomy := by
  cases h with
  | reused _ hafter _ _ _ => exact ⟨hafter ▸ hroomy.positive, hafter ▸ hroomy.distinct⟩
  | reserved hafter hpositive hdistinct _ _ _ =>
    constructor
    · rw [hafter]
      exact List.forall_mem_append.mpr ⟨hroomy.positive, List.forall_mem_singleton.mpr hpositive⟩
    · rw [hafter]
      refine List.pairwise_append.mpr ⟨hroomy.distinct, List.pairwise_singleton _ _, ?_⟩
      rintro segment hin _ hlast
      obtain rfl := List.mem_singleton.mp hlast
      exact hdistinct segment hin

/-- Segments for entry stubs lie apart from each other as long as they are the same. -/
theorem SameRoom.roomy (h : s.SameRoom t) (hroomy : s.code.Roomy) : t.code.Roomy :=
  ⟨h.segments ▸ hroomy.positive, h.segments ▸ hroomy.distinct⟩

/-- Operations on code memory take no room in the segments for stubs if they take none in mappings. -/
theorem InStep.sameRoom (h : s.InStep since placed others) {memory : Memory}
    (huse : s.engine.memory.SameUse memory) :
    s.SameRoom { s with engine := { s.engine with memory } } where
  segments := rfl
  lengths := huse.lengths (List.forall_mem_cons.mp h.backed).1

/-- Getting memory for a table takes no room. -/
theorem grow_room (h : s.InStep since placed others) (bytes : Nat) :
    (onMemory (Memory.grow bytes)).Ensures s
      (fun _ t => t.InStep since placed others ∧ t.code = s.code ∧ s.SameRoom t)
      (fun _ t => s.SameRoom t) :=
  (ensures_onMemory _).mpr ((Memory.grow_claims bytes).mono
    (fun _ _ hgrown => ⟨h.withMemory (h.sound.keeps hgrown), rfl,
      .of_room (congrArg (s.code.lazySegments, ·) (Memory.inUse_of_claims hgrown))⟩)
    (fun _ _ hgrown =>
      .of_room (congrArg (s.code.lazySegments, ·) (Memory.inUse_of_claims hgrown.2))))

/-- A segment that is made for stubs is none of those that there are, with all its room left. -/
theorem reserve_room (h : s.InStep since placed others) (bytes : Nat) :
    (Op.during .allocatingStubSegment (onMemory (Segment.reserve bytes))).Ensures s
      (fun segment t => s.SameRoom t ∧ bytes ≤ segment.capacity ∧ 0 < segment.base ∧
        (∀ other ∈ s.code.lazySegments, 0 < other.capacity → other.base ≠ segment.base) ∧
        segment.length t.engine.memory = 0)
      (fun _ t => s.SameRoom t) := by
  have hreserve : (onMemory (Segment.reserve bytes)).Ensures s
      (fun segment t => s.SameRoom t ∧ bytes ≤ segment.capacity ∧ 0 < segment.base ∧
        (∀ other ∈ s.code.lazySegments, 0 < other.capacity → other.base ≠ segment.base) ∧
        segment.length t.engine.memory = 0)
      (fun _ t => s.SameRoom t) := by
    refine (ensures_onMemory _).mpr ((Segment.reserve_room h.sound bytes).mono
      (fun segment memory hafter => ?_) (fun _ _ huse => h.sameRoom huse))
    obtain ⟨hfresh, hbytes, hlength, huse⟩ := hafter
    refine ⟨h.sameRoom huse, hbytes, hfresh.positive, fun other hin hsome => ?_, hlength⟩
    have hbacked := (List.forall_mem_cons.mp h.backed).1 other hin
    exact hfresh.base_ne _ (hbacked.resolve_left (Nat.ne_of_gt hsome))
  exact hreserve.during

/-- Whether a segment is the one to put stubs into: the last one that there was, or a new one of which
nothing is in use. -/
inductive Provides (s : Running) (segment : Segment) (t : Running) : Prop where
  /-- There is room in the last segment. -/
  | reused {earlier : List Segment} (hbefore : s.code.lazySegments = earlier ++ [segment]) (hsame : t = s)
  /-- A segment has been made. -/
  | reserved (hafter : t.code.lazySegments = s.code.lazySegments ++ [segment])
      (hpositive : 0 < segment.base)
      (hdistinct : ∀ other ∈ s.code.lazySegments, 0 < other.capacity → other.base ≠ segment.base)
      (hlength : segment.length t.engine.memory = 0)
      (hlengths : Memory.SameLengths s.code.lazySegments s.engine.memory t.engine.memory)

/-- The segment for stubs has room for them. -/
theorem stubSegment_room (h : s.InStep since placed others) (needed : Nat) :
    (stubSegment needed).Ensures s
      (fun segment t => segment.fits t.engine.memory needed = true ∧ s.Provides segment t)
      (fun _ t => s.SameRoom t) := by
  refine stubSegment_ensures (fun segment hlast hfits => ?_) (fun _ => .refl s) (grow_room h)
    fun t bytes ht hneeded => ?_
  · obtain ⟨earlier, hearlier⟩ := List.getLast?_eq_some_iff.mp hlast
    exact ⟨hfits, .reused hearlier rfl⟩
  obtain ⟨ht, hcode, hsame⟩ := ht
  refine (reserve_room ht bytes).mono (fun segment u hu => ?_) (fun _ u hu => hsame.trans hu)
  obtain ⟨hreserved, hbytes, hpositive, hdistinct, hlength⟩ := hu
  have hafter := hsame.trans hreserved
  rw [hcode] at hdistinct
  refine ⟨?_, .reserved (congrArg (· ++ [segment]) hafter.segments) hpositive hdistinct hlength
    hafter.lengths⟩
  have hneeded : needed ≤ segment.capacity := Nat.le_trans hneeded hbytes
  have hnone : segment.length u.engine.memory ≤ segment.capacity - needed := hlength ▸ Nat.zero_le _
  rw [Segment.fits, Bool.and_eq_true, decide_eq_true_eq, decide_eq_true_eq]
  exact ⟨hneeded, hnone⟩

/-- What is claimed of the segment for stubs is spent. -/
theorem Provides.claim_room {segment : Segment} (h : s.Provides segment t) (hroomy : s.code.Roomy)
    {needed : Nat} (hfits : segment.fits t.engine.memory needed = true) :
    (onMemory (segment.claim needed)).Ensures t (fun _ u => s.SpendsRoom segment needed u)
      (fun _ _ => False) := by
  rw [ensures_onMemory]
  refine (Segment.claim_room hfits).mono (fun offset memory hmemory => ?_) (fun _ _ h => h)
  obtain ⟨rfl, hcapacity, hroom⟩ := hmemory
  have hown : segment.length (t.engine.memory.setInUse segment.base
      (segment.length t.engine.memory + needed)) = segment.length t.engine.memory + needed := if_pos rfl
  have hother {other : Segment} (hne : other.base ≠ segment.base) :
      other.length (t.engine.memory.setInUse segment.base
        (segment.length t.engine.memory + needed)) = other.length t.engine.memory := if_neg hne
  cases h with
  | @reused earlier hbefore hsame =>
    subst hsame
    have hdistinct := hroomy.distinct
    rw [hbefore, List.pairwise_append] at hdistinct
    refine .reused hbefore rfl hcapacity (fun _ => ⟨hown, hown.symm ▸ hroom⟩) fun other hin hsome => ?_
    exact hother (hdistinct.2.2 other hin segment List.mem_cons_self hsome)
  | reserved hafter hpositive hdistinct hlength hlengths =>
    refine .reserved hafter hpositive hdistinct hcapacity ?_ fun other hin hsome => ?_
    · exact hown.trans (by rw [hlength, Nat.zero_add])
    · exact (hother (hdistinct other hin hsome)).trans (hlengths other hin hsome)

/-- The segment for stubs is one of those for stubs. -/
theorem Provides.mem {segment : Segment} (h : s.Provides segment t) : segment ∈ t.code.lazySegments := by
  cases h with
  | reused hbefore hsame =>
    rw [hsame, hbefore]
    exact List.mem_append_right _ List.mem_cons_self
  | reserved hafter =>
    rw [hafter]
    exact List.mem_append_right _ List.mem_cons_self

/-- Whether a compiler has made stubs for some functions, with all entries, and room is spent on them in
whole pages. -/
def TakesRoom (s : Running) (compiler : StubCompiler) (funcs : List Nat) (t : Running) : Prop :=
  ∃ tier requests stubs entries last bytes, requests.map StubRequest.func = funcs ∧
    compiler.compile tier requests = .ok stubs ∧ stubs.entriesFor requests = .ok entries ∧
    Page.roundUp stubs.code.length = .ok bytes ∧ s.SpendsRoom last bytes t

/-- Stubs that a compiler has made for some functions with all entries, that have got room in a segment,
in whole pages, and that could then not be put there. -/
structure FailedStubs (compiler : StubCompiler) (funcs : List Nat) (reason : Failure) where
  /-- The block that the stubs call into. -/
  tier : Block
  /-- What was asked of the compiler. -/
  requests : List StubRequest
  /-- What the compiler answered. -/
  stubs : CompiledStubs
  /-- The entries for the requests. -/
  entries : List StubEntries
  /-- Where the stubs have got room. -/
  segment : Segment
  /-- How much room the stubs have got. -/
  bytes : Nat
  /-- Where in the segment the room starts. -/
  offset : Nat
  /-- The module before room was claimed. -/
  before : Running
  /-- The module as soon as room was claimed. -/
  claimed : Running
  /-- The module when the stubs could not be put there. -/
  after : Running
  requested : requests.map (·.func) = funcs
  compiled : compiler.compile tier requests = .ok stubs
  entered : stubs.entriesFor requests = .ok entries
  rounded : Page.roundUp stubs.code.length = .ok bytes
  claims : onMemory (segment.claim bytes) before = .ok offset claimed
  fails : putStubs stubs entries segment offset claimed = .error (.failure reason) after

/-- Whether stubs for some functions got room and could not be put there, so that the room is spent. -/
def LosesRoom (s : Running) (compiler : StubCompiler) (funcs : List Nat) (reason : Failure)
    (t : Running) : Prop :=
  ∃ failed : FailedStubs compiler funcs reason,
    failed.after.storage = t.storage ∧ s.SpendsRoom failed.segment failed.bytes t

section TakesRoom

variable {funcs : List Nat} {reason : Failure}

/-- Room is taken whatever comes before that takes none. -/
theorem TakesRoom.of_sameRoom (h : s.SameRoom t) (htakes : t.TakesRoom compiler funcs u) :
    s.TakesRoom compiler funcs u := by
  obtain ⟨tier, requests, stubs, entries, last, bytes, hfuncs, hcompiled, hentries, hbytes, hspends⟩ :=
    htakes
  exact ⟨tier, requests, stubs, entries, last, bytes, hfuncs, hcompiled, hentries, hbytes,
    .of_sameRoom h hspends⟩

/-- Room that is taken stays so whatever comes after that takes none. -/
theorem TakesRoom.of_room (h : s.TakesRoom compiler funcs t) (hroom : u.room = t.room) :
    s.TakesRoom compiler funcs u := by
  obtain ⟨tier, requests, stubs, entries, last, bytes, hfuncs, hcompiled, hentries, hbytes, hspends⟩ := h
  exact ⟨tier, requests, stubs, entries, last, bytes, hfuncs, hcompiled, hentries, hbytes,
    hspends.of_room hroom⟩

/-- Where room is spent there is a segment for entry stubs. -/
theorem SpendsRoom.segments_ne (h : s.SpendsRoom last bytes t) : t.code.lazySegments ≠ [] := by
  cases h with
  | reused hbefore hafter =>
    rw [hafter, hbefore]
    exact List.append_ne_nil_of_right_ne_nil _ (List.cons_ne_nil _ _)
  | reserved hafter =>
    rw [hafter]
    exact List.append_ne_nil_of_right_ne_nil _ (List.cons_ne_nil _ _)

/-- Segments for entry stubs lie apart from each other, whatever room is taken. -/
theorem TakesRoom.roomy (h : s.TakesRoom compiler funcs t) (hroomy : s.code.Roomy) :
    t.code.Roomy := by
  obtain ⟨_, _, _, _, _, _, -, -, -, -, hspends⟩ := h
  exact hspends.roomy hroomy

/-- Room is lost whatever comes before that takes none. -/
theorem LosesRoom.of_sameRoom (h : s.SameRoom t) (hloses : t.LosesRoom compiler funcs reason u) :
    s.LosesRoom compiler funcs reason u := by
  obtain ⟨failed, hstorage, hspends⟩ := hloses
  exact ⟨failed, hstorage, .of_sameRoom h hspends⟩

/-- Room that is lost stays so whatever comes after that leaves code memory alone. -/
theorem LosesRoom.of_storage (h : s.LosesRoom compiler funcs reason t) (hsame : u.storage = t.storage) :
    s.LosesRoom compiler funcs reason u := by
  obtain ⟨failed, hstorage, hspends⟩ := h
  exact ⟨failed, hstorage.trans hsame.symm, hspends.of_room (room_of_storage hsame)⟩

/-- Room is lost for the reasons alone that putting stubs where they have got room fails for. -/
theorem LosesRoom.followsClaim (h : s.LosesRoom compiler funcs reason t) : reason.FollowsClaim := by
  obtain ⟨failed, -⟩ := h
  exact ((frugal_putStubs _ _ _ _ _).of_error failed.fails).2

/-- Segments for entry stubs lie apart from each other, whatever room is lost. -/
theorem LosesRoom.roomy (h : s.LosesRoom compiler funcs reason t) (hroomy : s.code.Roomy) :
    t.code.Roomy := by
  obtain ⟨_, -, hspends⟩ := h
  exact hspends.roomy hroomy

end TakesRoom

/-- Whether a fault leaves the segments for stubs as they were, or is the failure of stubs for some functions
that had got room. Nothing is said of violations. -/
def Spares (s : Running) (compiler : StubCompiler) (funcs : List Nat) (fault : Fault) (t : Running) :
    Prop :=
  fault.Within fun reason => s.SameRoom t ∨ s.LosesRoom compiler funcs reason t

section Spares

variable {funcs : List Nat} {fault : Fault}

/-- Whatever the fault is, no room is lost if none is taken. -/
theorem Spares.of_sameRoom (h : s.SameRoom t) : s.Spares compiler funcs fault t :=
  Fault.within_of_forall fun _ => .inl h

/-- What comes before a fault and takes no room does not matter. -/
theorem Spares.before (h : s.SameRoom t) (hspares : t.Spares compiler funcs fault u) :
    s.Spares compiler funcs fault u :=
  hspares.mono fun _ hreason => hreason.imp h.trans (.of_sameRoom h)

/-- What comes after a fault and leaves code memory alone does not matter. -/
theorem Spares.after (h : s.Spares compiler funcs fault t) (hsame : u.storage = t.storage) :
    s.Spares compiler funcs fault u :=
  h.mono fun _ hreason => hreason.imp (·.trans (.of_room (room_of_storage hsame))) (·.of_storage hsame)

end Spares

/-- Stubs that are placed take their room. If they cannot be placed, they have taken it only if they could
not be put there. -/
theorem placeStubs_room (h : s.InStep since placed others) (hroomy : s.code.Roomy)
    (hcompiled : compiler.compile tier requests = .ok stubs) :
    (placeStubs stubs requests).Ensures s
      (fun _ t => s.TakesRoom compiler (requests.map (·.func)) t)
      (fun fault t => s.Spares compiler (requests.map (·.func)) fault t) := by
  refine placeStubs_ensures (fun _ => .of_sameRoom (.refl s)) fun entries bytes hentries hbytes => ?_
  refine (stubSegment_room h bytes).mono (fun segment t ht => ?_) (fun _ _ h => .of_sameRoom h)
  refine ((ht.2.claim_room hroomy ht.1).and (Op.ensures_run _ t)).mono (fun offset u hu => ?_)
    (fun _ _ h => h.1.elim)
  obtain ⟨hspends, hclaim⟩ := hu
  refine ((frugal_putStubs stubs entries segment offset u).and (Op.ensures_run _ u)).mono
    (fun _ v hv => ?_) (fun fault v hv => ?_)
  · exact ⟨tier, requests, stubs, entries, segment, bytes, rfl, hcompiled, hentries, hbytes,
      hspends.of_room hv.1⟩
  · cases fault with
    | violation violation => trivial
    | failure reason =>
      let failed : FailedStubs compiler (requests.map (·.func)) reason :=
        { tier, requests, stubs, entries, segment, bytes, offset, before := t, claimed := u, after := v
          requested := rfl, compiled := hcompiled, entered := hentries, rounded := hbytes
          claims := hclaim, fails := hv.2 }
      exact .inr ⟨failed, rfl, hspends.of_room hv.1.1⟩

/-- Stubs that are made take room, and may have taken it if they cannot be placed. -/
theorem createStubs_room (h : s.InStep since placed others) (hroomy : s.code.Roomy) :
    (createStubs compiler requests tier).Ensures s
      (fun _ t => s.TakesRoom compiler (requests.map (·.func)) t)
      (fun fault t => s.Spares compiler (requests.map (·.func)) fault t) := by
  have hcompile : (Op.during .compilingStubs (compileStubs compiler tier requests)).Ensures s
      (fun stubs t => s.SameIndexes t ∧ compiler.compile tier requests = .ok stubs)
      (fun _ t => s.SameRoom t) :=
    ((compileStubs_sameIndexes.and compileStubs_made).mono (fun _ _ ht => ⟨ht.1, ht.2.1⟩)
      (fun _ _ ht => ht.1.2.sameRoom)).during
  refine hcompile.bind (fun stubs t ht => ?_) (fun _ _ h => .of_sameRoom h)
  obtain ⟨hsame, hcompiled⟩ := ht
  have hbefore := hsame.sameRoom
  exact (placeStubs_room (h.congr hsame) (hbefore.roomy hroomy) hcompiled).mono
    (fun _ _ hu => .of_sameRoom hbefore hu) (fun _ _ hu => .before hbefore hu)

/-- The first stub of a function takes room, and may have taken it if there is none in the end. -/
theorem createStub_room (h : s.InStep since placed others) (hroomy : s.code.Roomy) (exportIndex : Nat)
    (entry : FuncExport) :
    (createStub compiler exportIndex entry tier).Ensures s
      (fun _ t => s.TakesRoom compiler [entry.func] t)
      (fun fault t => s.Spares compiler [entry.func] fault t) := by
  refine createStub_ensures (fun _ _ => .of_sameRoom (.refl s))
    (fun bytes => (grow_room h bytes).mono (fun _ _ ht => ht) (fun _ _ ht => .of_sameRoom ht))
    (fun t _ ht => .of_sameRoom ht.2.2) fun t position address ht _ _ => ?_
  obtain ⟨ht, hcode, hsame⟩ := ht
  refine (createStubs_room ht (hcode ▸ hroomy)).mono (fun result u hu => ?_)
    (fun _ u hu => .before hsame hu)
  have htakes : s.TakesRoom compiler [entry.func] u := .of_sameRoom hsame hu
  exact (frugal_fileStub _ _ _ _).ensures_of_violates (fun _ v hv => htakes.of_room hv)
    fun _ _ => trivial

/-- The block of stubs that are placed is in a segment for stubs. -/
theorem placeStubs_segment (h : s.InStep since placed others) (stubs : CompiledStubs) :
    (placeStubs stubs requests).Ensures s
      (fun result t => ∃ block, t.code.blocks[result.1]? = some block ∧
        block.segment ∈ t.code.lazySegments)
      (fun _ _ => True) := by
  refine placeStubs_ensures (fun _ => trivial) fun entries needed _ hneeded => ?_
  refine (stubSegment_room h needed).mono (fun segment t ht => ?_) (fun _ _ _ => trivial)
  refine (onMemory_code _).mono (fun offset u hu => ?_) (fun _ _ _ => trivial)
  refine ((putStubs_content ..).and (frugal_putStubs stubs _ segment offset u)).mono
    (fun result v hv => ?_) (fun _ _ _ => trivial)
  obtain ⟨⟨block, -, hsegment, rfl, hcontent⟩, hroom⟩ := hv
  have hblocks : v.code.blocks = u.code.blocks ++ [block] := (congrArg ModuleCode.blocks hcontent :)
  have hsegments : v.code.lazySegments = u.code.lazySegments := congrArg Prod.fst hroom
  refine ⟨block, ?_, ?_⟩
  · rw [hblocks, List.getElem?_concat_length]
  · rw [hsegments, hu, hsegment]
    exact ht.2.mem

/-- The block of stubs that are made is in a segment for stubs. -/
theorem createStubs_segment (h : s.InStep since placed others) :
    (createStubs compiler requests tier).Ensures s
      (fun result t => ∃ block, t.code.blocks[result.1]? = some block ∧
        block.segment ∈ t.code.lazySegments)
      (fun _ _ => True) :=
  (compileStubs_sameIndexes.mono (fun _ _ ht => ht) (fun _ _ _ => trivial)).during.bind
    (fun stubs _ ht => placeStubs_segment (h.congr ht) stubs) (fun _ _ h => h)

/-- The block of stubs that are made anew is in a segment for stubs. -/
theorem upgradeStubs_segment (h : s.InStep since placed others) (tier2 : Block) :
    (upgradeStubs compiler tier2).Ensures s
      (fun result t => ∀ index ∈ result, ∃ block, t.code.blocks[index]? = some block ∧
        block.segment ∈ t.code.lazySegments)
      (fun _ _ => True) := by
  refine upgradeStubs_ensures (fun _ => by rintro index ⟨⟩)
    (fun bytes => (grow_room h bytes).mono (fun _ _ ht => ht.1) (fun _ _ _ => trivial))
    (fun _ _ _ => trivial) fun t requests ht _ => ?_
  refine (createStubs_segment ht).mono (fun result u hu index hindex => ?_) (fun _ _ h => h)
  obtain rfl := Option.some.inj hindex
  exact hu

/-- An interpreter entry that is asked for takes no room if it is there, and room for its stub if it is
made; a failure leaves everything as it was unless that stub had got room. -/
theorem interpEntry_room (h : s.InStep since placed others) (hroomy : s.code.Roomy) (func : Nat) :
    (interpEntry compiler func).Ensures s
      (fun _ t => s.SameRoom t ∨ s.TakesRoom compiler [func] t)
      (fun fault t => fault.Within fun failure => s.SameRoom t ∨
        ∃ reason, failure = reason.during (.creatingEntryStub func) ∧
          s.LosesRoom compiler [func] reason t) := by
  refine interpEntry_ensures (.inl (.refl s)) (fun _ _ => trivial) fun exportIndex entry hexport => ?_
  obtain rfl := Block.func_of_exportOf hexport
  refine (Op.ensures_during _ _).mpr ((createStub_room h hroomy exportIndex entry).mono
    (fun _ _ ht => .inr ht) (fun fault t ht => ?_))
  cases fault with
  | failure reason => exact Or.imp_right (fun hlost => ⟨reason, rfl, hlost⟩) ht
  | violation violation => trivial

/-- Stubs that are made anew take room, and may have taken it if they cannot be placed. -/
theorem upgradeStubs_room (h : s.InStep since placed others) (hroomy : s.code.Roomy) (tier2 : Block) :
    (upgradeStubs compiler tier2).Ensures s
      (fun _ t => s.SameRoom t ∨
        s.TakesRoom compiler (upgradedFuncs s.code.tier1.kind s.code.lazyExports) t)
      (fun fault t =>
        s.Spares compiler (upgradedFuncs s.code.tier1.kind s.code.lazyExports) fault t) := by
  refine upgradeStubs_ensures (fun _ => .inl (.refl s))
    (fun bytes => (grow_room h bytes).mono (fun _ _ ht => ht) (fun _ _ ht => .of_sameRoom ht))
    (fun t _ ht => .of_sameRoom ht.2.2) fun t requests ht hrequests => ?_
  obtain ⟨ht, hcode, hsame⟩ := ht
  rw [← (upgradeRequests_eq_ok hrequests).1]
  exact (createStubs_room ht (hcode ▸ hroomy)).mono
    (fun result u hu => .inr ((TakesRoom.of_sameRoom hsame hu).of_room rfl))
    (fun _ u hu => .before hsame hu)

/-- Placing a tier takes no room in the segments for stubs. -/
theorem buildOptimized_room (h : s.InStep since placed others) (plan : PatchPlan)
    (compiled : CompiledBlock) :
    (buildOptimized plan compiled).Ensures s (fun _ t => s.SameRoom t) (fun _ t => s.SameRoom t) := by
  rw [buildOptimized, Op.ensures_bind, ensures_current, Op.ensures_bind, ensures_onMemory]
  refine (Block.place_sameUse h.sound ..).mono (fun block _ huse => ?_) (fun _ _ huse => h.sameRoom huse)
  have hsame := h.sameRoom huse
  exact (frugal_bindBlock _ block).ensures (fun _ _ hu => hsame.trans (.of_room hu))
    fun _ _ hu _ => hsame.trans (.of_room hu)

/-- An install that has begun takes room for the stubs that are made anew, or leaves everything as it was
unless these had got room. -/
theorem installTier_room (h : s.InStep since placed others) (hroomy : s.code.Roomy) (plan : PatchPlan)
    (compiled : CompiledBlock) :
    (installTier compiler plan compiled).Ensures s
      (fun _ t => s.SameRoom t ∨
        s.TakesRoom compiler (upgradedFuncs s.code.tier1.kind s.code.lazyExports) t)
      (fun fault t =>
        s.Spares compiler (upgradedFuncs s.code.tier1.kind s.code.lazyExports) fault t) := by
  refine ((buildOptimized_inStep h plan compiled).and (buildOptimized_room h plan compiled)).bind
    (fun tier2 t ht => ?_) (fun _ _ ht => .of_sameRoom ht.2)
  obtain ⟨⟨ht, hcode, hserial, hlt, -, -⟩, hbuilt⟩ := ht
  have hadd := (addBlock_inStep ht (hcode ▸ hserial) hlt).and
    ((addBlock_content tier2).and (frugal_addBlock tier2 t))
  refine hadd.bind (fun index u hu => ?_)
    (fun _ u hu => .of_sameRoom (hbuilt.trans (.of_room hu.2.2.1)))
  obtain ⟨⟨hu, -, -⟩, ⟨-, hcontent⟩, hroom⟩ := hu
  have hadded : s.SameRoom u := hbuilt.trans (.of_room hroom)
  have htier1 : u.code.tier1 = s.code.tier1 := (congrArg ModuleCode.tier1 hcontent :).trans (by rw [hcode]; rfl)
  have hexports : u.code.lazyExports = s.code.lazyExports :=
    (congrArg ModuleCode.lazyExports hcontent :).trans (by rw [hcode]; rfl)
  have hupgrade : (upgradeStubs compiler tier2).Ensures u _ _ :=
    upgradeStubs_room hu (hadded.roomy hroomy) tier2
  rw [htier1, hexports] at hupgrade
  refine Op.Ensures.bind ((Op.ensures_onFailure _ _).mpr (hupgrade.mono
    (fun stubIndex v hv => hv.imp hadded.trans (TakesRoom.of_sameRoom hadded)) fun fault v hv => ?_))
    (fun stubIndex v hv => ?_) (fun _ _ h => h)
  · have hspares := Spares.before hadded hv
    cases fault with
    | violation violation => trivial
    | failure failure =>
      exact (frugal_popBlock tier2).ensures_of_violates (fun _ w hw => hspares.after hw) fun _ _ => trivial
  · exact ((frugal_change fun _ => by rfl).bind fun _ =>
      frugal_redirect tier2 stubIndex).ensures_of_violates
        (fun _ w hw => hv.imp (·.trans (.of_room hw)) (·.of_room hw)) fun _ _ => trivial

/-- An install takes room for the stubs that are made anew, or leaves everything as it was unless these had
got room. -/
theorem installOptimized_room (h : s.InStep since placed others) (hroomy : s.code.Roomy)
    (plan : PatchPlan) (compiled : CompiledBlock) :
    (installOptimized compiler plan compiled).Ensures s
      (fun _ t => s.SameRoom t ∨
        s.TakesRoom compiler (upgradedFuncs s.code.tier1.kind s.code.lazyExports) t)
      (fun fault t =>
        s.Spares compiler (upgradedFuncs s.code.tier1.kind s.code.lazyExports) fault t) := by
  refine (beginInstall_ensures compiled.kind).bind (fun _ t ht => ?_)
    (fun _ t ht => .of_sameRoom (ht.1 ▸ .refl s))
  obtain ⟨-, -, -, rfl⟩ := ht
  have hbegun : s.SameRoom { s with code := s.code.withTier2 .building } := .of_room rfl
  refine (Op.ensures_onFailure _ _).mpr ((installTier_room (h.withTier2 .building)
    (hbegun.roomy hroomy) plan compiled).mono (fun _ u hu => ?_) (fun fault u hu => ?_))
  · exact hu.imp hbegun.trans (.of_sameRoom hbegun)
  · have hspares := Spares.before hbegun hu
    cases fault with
    | violation violation => trivial
    | failure failure => exact (ensures_change _).mpr (hspares.after rfl)

end Running

namespace ModuleCode

variable {engine : Engine}

/-- New module code has no segments for entry stubs yet. -/
theorem create_segments (settings : Settings) (symbols : SymbolTable) (parts : ModuleParts) :
    (create settings symbols parts).Ensures engine (fun code _ => code.lazySegments = [])
      (fun _ _ => True) := by
  have hadded {code : ModuleCode} {e : Engine} {sharedStubs tier1 : Block}
      (hnone : code.lazySegments = []) :
      (do
        Op.onFailure (Running.addFirstBlocks sharedStubs tier1) Running.retire
        Running.change (·.ensureLabels settings.profiling) : Op Running Unit).Ensures
        { engine := e, code } (fun _ t => t.code.lazySegments = []) (fun _ _ => True) := by
    have hblocks : (Running.addFirstBlocks sharedStubs tier1).Frugal Running.room :=
      (Running.frugal_addBlock _).bind fun _ => (Running.frugal_addBlock _).bind fun _ =>
        Op.frugal_pure _
    have hadd : (Running.addFirstBlocks sharedStubs tier1).Ensures { engine := e, code }
        (fun _ t => t.code.lazySegments = []) (fun _ _ => True) :=
      hblocks.ensures (fun _ _ ht => (congrArg Prod.fst ht).trans hnone) fun _ _ _ _ => trivial
    refine (hadd.onFailure _).bind (fun _ t ht => ?_) (fun _ _ h => h)
    obtain ⟨labels, hlabels⟩ := exists_ensureLabels_eq t.code settings.profiling
    rw [Running.ensures_change, hlabels]
    exact ht
  have hskip {α β : Type} {op : Op Engine β} {next : β → Op Engine α} {onValue : α → Prop}
      (hnext : ∀ value e, (next value).Ensures e (fun code _ => onValue code) (fun _ _ => True)) :
      ∀ e, (op >>= next).Ensures e (fun code _ => onValue code) (fun _ _ => True) :=
    fun e => (Op.ensures_true op e).bind (fun value e _ => hnext value e) (fun _ _ h => h)
  refine hskip (fun _ => hskip fun _ => hskip fun _ => hskip fun _ => hskip fun _ => hskip fun _ =>
    hskip fun sharedStubs => hskip fun tier1 => hskip fun _ e => ?_) engine
  exact (started_ensures (hadded rfl)).mono (fun _ _ ht => ht) (fun _ _ h => trivial)

/-- Module code that is loaded has no segments for entry stubs yet. -/
theorem load_segments {settings : Settings} {symbols : SymbolTable} {bytes : Bytes} {after : Engine}
    {code : ModuleCode} (h : load settings symbols bytes engine = .ok code after) :
    code.lazySegments = [] := by
  obtain ⟨_, _, _, _, _, -, -, -, hcreate⟩ := load_eq_ok h
  exact (create_segments ..).of_ok hcreate

end ModuleCode

namespace Process

variable {p q : Process}

/-- Whether the segments for entry stubs of each module lie apart. -/
def Roomy (process : Process) : Prop := ∀ code ∈ process.codes, code.Roomy

/-- Without segments for entry stubs there is nothing to lie apart. -/
theorem roomy_of_none {code : ModuleCode} (h : code.lazySegments = []) : code.Roomy where
  positive := h ▸ List.forall_mem_nil _
  distinct := h ▸ List.Pairwise.nil

/-- The segments for entry stubs of a module lie apart, whatever is done to its code. -/
theorem lasting_roomy : Lasting ModuleCode.Roomy where
  create hend := roomy_of_none ((ModuleCode.create_segments ..).of_ok hend)
  entry hrunning _ hend hcalm hroomy := by
    refine Op.Ensures.ending_of_calm (motive := fun t => t.code.Roomy)
      ((Running.interpEntry_room hrunning hroomy _).mono (fun _ _ hafter => ?_)
        fun fault _ hafter hfailed => ?_) hend hcalm
    · exact hafter.elim (·.roomy hroomy) (·.roomy hroomy)
    · obtain ⟨failure, rfl, hafter⟩ := hafter.of_calm hfailed
      exact hafter.elim (·.roomy hroomy) fun ⟨_, _, hlost⟩ => hlost.roomy hroomy
  install hrunning hend hcalm hroomy := by
    refine Op.Ensures.ending_of_calm (motive := fun t => t.code.Roomy)
      ((Running.installOptimized_room hrunning hroomy _ _).mono (fun _ _ hafter => ?_)
        fun fault _ hafter hfailed => ?_) hend hcalm
    · exact hafter.elim (·.roomy hroomy) (·.roomy hroomy)
    · obtain ⟨failure, rfl, hafter⟩ := hafter.of_calm hfailed
      exact hafter.elim (·.roomy hroomy) (·.roomy hroomy)
  dispatch _ hroomy := ⟨hroomy.positive, hroomy.distinct⟩
  label _ hroomy := ⟨hroomy.positive, hroomy.distinct⟩

/-- The segments for entry stubs of each module lie apart at all times. -/
theorem Reachable.roomy (h : Reachable p) : Roomy p := lasting_roomy.holds h

variable {s : Running} {placed : List Block} {others : List ModuleCode}

/-- If a call fails on the code of a module then the segments for entry stubs are as long as they were,
unless stubs had been made for the functions in question and had got room, where they could then not be
put: then that is why the call fails, for one of the reasons that follow the claim, and the last segment,
which may be new, is longer by just that room. -/
theorem failed_calls_lose_claimed_room (compiler : StubCompiler)
    (hreach : Reachable { engine := s.engine, placed, codes := s.code :: others }) :
    (∀ func failure t, Running.interpEntry compiler func s = .error (.failure failure) t →
      s.SameRoom t ∨ ∃ reason, failure = reason.during (.creatingEntryStub func) ∧
        reason.FollowsClaim ∧ s.LosesRoom compiler [func] reason t) ∧
    (∀ plan compiled failure t,
      Running.installOptimized compiler plan compiled s = .error (.failure failure) t →
        s.SameRoom t ∨ failure.FollowsClaim ∧
          s.LosesRoom compiler (upgradedFuncs s.code.tier1.kind s.code.lazyExports) failure t) := by
  have hs : s.InStep s.engine.memory placed others := hreach.inStep
  have hroomy : s.code.Roomy := hreach.roomy s.code List.mem_cons_self
  constructor
  · intro func failure t hend
    obtain hsame | ⟨reason, hreason, hlost⟩ := (Running.interpEntry_room hs hroomy func).of_error hend
    · exact .inl hsame
    · exact .inr ⟨reason, hreason, hlost.followsClaim, hlost⟩
  · intro plan compiled failure t hend
    obtain hsame | hlost := (Running.installOptimized_room hs hroomy plan compiled).of_error hend
    · exact .inl hsame
    · exact .inr ⟨hlost.followsClaim, hlost⟩

end Process

/-- Stubs that refer to a function of the runtime. -/
def StubLayout.referring : StubLayout where
  plan := { symbolic := fun symbol => if symbol = .refFunc then [0] else [] }

/-- A patch behind the code of a tier with one function. -/
def PatchPlan.outOfBounds : PatchPlan where
  internal := [{ site := 9, target := 0 }]

/-- How the only function of a module gets no stub if what the stub refers to has no address. -/
def Failure.unlinkedStub : Failure where
  activities := [.creatingEntryStub 0]
  cause := .unresolvedSymbol .refFunc

/-- In a module with one function, stubs cannot be linked without the function of the runtime that they
refer to, time after time, and an optimized tier whose patches do not fit is not placed. -/
theorem load_oneFunction_referring :
    ∃ code engine t u v chain,
      ModuleCode.load {} .empty Image.oneFunction.toBytes {} = .ok code engine ∧
      code.lazySegments = [] ∧
      Running.interpEntry StubLayout.referring.compiler 0 { engine, code } =
        .error (.failure .unlinkedStub) t ∧
      t.code.lazySegments = [{ base := 0x200000002000, capacity := 0x10000 }] ∧
      t.engine.memory.inUse 0x200000002000 = 0x1000 ∧
      Running.interpEntry StubLayout.referring.compiler 0 t =
        .error (.failure .unlinkedStub) u ∧
      u.code.lazySegments = [{ base := 0x200000002000, capacity := 0x10000 }] ∧
      u.engine.memory.inUse 0x200000002000 = 0x2000 ∧
      Running.installOptimized StubLayout.referring.compiler .outOfBounds .oneFunctionOptimized
        { engine, code } = .error (.failure chain) v ∧ v.code.lazySegments = [] := by
  let segments : List Segment := [{ base := 0x200000002000, capacity := 0x10000 }]
  let entry := Running.interpEntry StubLayout.referring.compiler 0
  have hends : (ModuleCode.load {} .empty Image.oneFunction.toBytes).succeeds {} (fun code engine =>
      code.lazySegments = [] &&
      entry.fails { engine, code } (fun failure t =>
        failure = .unlinkedStub && t.code.lazySegments = segments &&
          t.engine.memory.inUse 0x200000002000 = 0x1000 &&
          entry.fails t (fun failure u => failure = .unlinkedStub && u.code.lazySegments = segments &&
            u.engine.memory.inUse 0x200000002000 = 0x2000)) &&
      (Running.installOptimized StubLayout.referring.compiler .outOfBounds
        .oneFunctionOptimized).fails { engine, code } (fun _ v => v.code.lazySegments = [])) = true := by
    decide +kernel
  obtain ⟨code, engine, hload, htest⟩ := Op.exists_of_succeeds hends
  rw [Bool.and_eq_true, Bool.and_eq_true, decide_eq_true_eq] at htest
  obtain ⟨⟨hnone, hentry⟩, hinstall⟩ := htest
  obtain ⟨_, t, hentry, ht⟩ := Op.exists_of_fails hentry
  simp only [Bool.and_eq_true, decide_eq_true_eq] at ht
  obtain ⟨⟨⟨rfl, hsegments⟩, huse⟩, hagain⟩ := ht
  obtain ⟨_, u, hagain, hu⟩ := Op.exists_of_fails hagain
  simp only [Bool.and_eq_true, decide_eq_true_eq] at hu
  obtain ⟨⟨rfl, hsegments'⟩, huse'⟩ := hu
  obtain ⟨chain, v, hinstall, hv⟩ := Op.exists_of_fails hinstall
  exact ⟨code, engine, t, u, v, chain, hload, hnone, hentry, hsegments, huse, hagain, hsegments', huse',
    hinstall, of_decide_eq_true hv⟩

namespace Process

/-- Entries that fail use up room: the first one makes a segment, and the next one takes more of it. -/
theorem failing_entries_use_up_room :
    ∃ (s t u : Running) (last : Segment),
      Reachable { engine := s.engine, placed := [], codes := [s.code] } ∧
      Running.interpEntry StubLayout.referring.compiler 0 s = .error (.failure .unlinkedStub) t ∧
      s.code.lazySegments = [] ∧ t.code.lazySegments = [last] ∧
      Reachable { engine := t.engine, placed := [], codes := [t.code] } ∧
      Running.interpEntry StubLayout.referring.compiler 0 t = .error (.failure .unlinkedStub) u ∧
      u.code.lazySegments = [last] ∧ last.length t.engine.memory < last.length u.engine.memory := by
  obtain ⟨code, engine, t, u, -, -, hload, hnone, hentry, hsegments, huse, hagain, hsegments', huse', -⟩ :=
    load_oneFunction_referring
  have hloaded := reachable_start.step (.load hload)
  have hfailed := hloaded.step
    (.entry (.inr fun _ => rfl) (Op.ending_of_error hentry) (by rintro _ ⟨⟩))
  refine ⟨_, t, u, _, hloaded, hentry, hnone, hsegments, hfailed, hagain, hsegments', ?_⟩
  rw [Segment.length, Segment.length, huse, huse']
  decide

/-- Of a module with one function, stubs that cannot be linked take room, and an optimized tier that cannot
be placed takes none. -/
theorem failed_calls_lose_claimed_room_once_loaded :
    ∃ (s t u : Running) (failure : Failure),
      Reachable { engine := s.engine, placed := [], codes := [s.code] } ∧
      Running.interpEntry StubLayout.referring.compiler 0 s = .error (.failure .unlinkedStub) t ∧
      Failure.FollowsClaim { cause := .unresolvedSymbol .refFunc } ∧
      s.LosesRoom StubLayout.referring.compiler [0] { cause := .unresolvedSymbol .refFunc } t ∧
      Running.installOptimized StubLayout.referring.compiler .outOfBounds .oneFunctionOptimized s =
        .error (.failure failure) u ∧ s.SameRoom u := by
  obtain ⟨code, engine, t, -, u, chain, hload, hnone, hentry, hsegments, -, -, -, -, hinstall, hlast⟩ :=
    load_oneFunction_referring
  have hloaded := reachable_start.step (.load hload)
  have hlost := failed_calls_lose_claimed_room (s := { engine, code }) StubLayout.referring.compiler hloaded
  obtain ⟨⟨activities, cause⟩, hreason, hfollows, hloses⟩ :=
    (hlost.1 _ _ _ hentry).resolve_left fun hsame => by
      have hsegments' := hsame.segments
      rw [hsegments, hnone] at hsegments'
      contradiction
  obtain ⟨rfl, rfl⟩ : activities = [] ∧ cause = .unresolvedSymbol .refFunc := by
    simpa [Failure.unlinkedStub, Failure.during, eq_comm] using hreason
  have hsame := (hlost.2 _ _ _ _ hinstall).resolve_right fun ⟨_, _, _, hspends⟩ =>
    hspends.segments_ne hlast
  exact ⟨_, t, u, chain, hloaded, hentry, hfollows, hloses, hinstall, hsame⟩

end Process

end CompiledCode

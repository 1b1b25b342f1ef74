import CompiledCode.Proofs.Enclosure
import CompiledCode.Proofs.Memory
import Mathlib.Order.Bounds.Defs

/-!
# Carving up a segment

Pieces of a segment are claimed from the front to the back, and how much of it is in use is all that is
kept of them. A claim is accepted if and only if what it asks for and everything accepted before come to
no more than there is. Hence it starts where the accepted claims before it end, and no two of them have
anything in common. A claim that is not accepted leaves no trace.

Sizes are 64-bit words. Rounding a request up to pages adds to it and masks the bits that count inside of
a page, and the test for room subtracts; both are guarded, so that they come to what the same arithmetic
on natural numbers comes to, however close a size is to the largest one.
-/

namespace CompiledCode

namespace Page

/-- The bits of a 64-bit size that count inside of a page. -/
def inside : UInt64 := UInt64.ofNat size - 1

/-- A 64-bit size rounded up to pages by masking, unless the addition before that wraps around. -/
def roundUpWord (bytes : UInt64) : Option UInt64 :=
  if bytes + inside < bytes then none else some ((bytes + inside) &&& ~~~inside)

/-- Masking the bits that count inside of a page leaves whole pages. -/
theorem toNat_and_not_inside (bytes : UInt64) :
    (bytes &&& ~~~inside).toNat = bytes.toNat / size * size := by
  have hmask : (~~~inside).toNat = (2 ^ 52 - 1) * 2 ^ 12 := rfl
  have hsize : size = 2 ^ 12 := rfl
  rw [UInt64.toNat_and, hmask, hsize]
  apply Nat.eq_of_testBit_eq
  intro i
  rw [Nat.testBit_and, Nat.testBit_mul_two_pow, Nat.testBit_two_pow_sub_one, Nat.testBit_mul_two_pow,
    Nat.testBit_div_two_pow]
  by_cases hpage : 12 ≤ i
  · rw [Nat.sub_add_cancel hpage]
    by_cases hword : i < 64
    · have hkept : i - 12 < 52 := by omega
      simp [hpage, hkept]
    · have hbeyond : bytes.toNat < 2 ^ i :=
        Nat.lt_of_lt_of_le bytes.toNat_lt (Nat.pow_le_pow_right (by decide) (by omega))
      simp [Nat.testBit_lt_two_pow hbeyond]
  · simp [hpage]

/-- An addition of the bits inside of a page wraps around if the sum is too large. -/
theorem add_inside_lt_iff (bytes : UInt64) :
    bytes + inside < bytes ↔ UInt64.size ≤ bytes.toNat + (size - 1) := by
  have hsmall : bytes.toNat < UInt64.size := bytes.toNat_lt_size
  have hinside : inside.toNat = size - 1 := rfl
  rw [UInt64.lt_iff_toNat_lt, UInt64.toNat_add, hinside]
  simp only [UInt64.size, size] at *
  omega

/-- Masking rounds a size up as dividing and multiplying does. -/
theorem roundUp_toNat (bytes : UInt64) :
    roundUp bytes.toNat = match roundUpWord bytes with
      | some rounded => .ok rounded.toNat
      | none => .error (.outOfMemory bytes.toNat) := by
  unfold roundUp roundUpWord
  by_cases hwraps : bytes + inside < bytes
  · have hlarge := (add_inside_lt_iff bytes).mp hwraps
    rw [if_pos hwraps, if_neg (by omega)]
  · have hsmall : bytes.toNat + (size - 1) < UInt64.size := by
      rw [add_inside_lt_iff] at hwraps
      omega
    have hsum : (bytes + inside).toNat = bytes.toNat + (size - 1) := by
      rw [UInt64.toNat_add]
      exact Nat.mod_eq_of_lt hsmall
    rw [if_neg hwraps, if_pos hsmall]
    dsimp only
    rw [toNat_and_not_inside, hsum]

/-- What a size is rounded up to is a 64-bit word again. -/
theorem exists_roundUpWord {bytes : UInt64} {rounded : Nat} (h : roundUp bytes.toNat = .ok rounded) :
    ∃ word, roundUpWord bytes = some word ∧ word.toNat = rounded := by
  rw [roundUp_toNat] at h
  cases hword : roundUpWord bytes with
  | none =>
    rw [hword] at h
    contradiction
  | some word =>
    rw [hword] at h
    exact ⟨word, rfl, Except.ok.inj h⟩

/-- Rounding up gives the least number of whole pages that is enough. -/
theorem isLeast_of_roundUp {bytes rounded : Nat} (h : roundUp bytes = .ok rounded) :
    IsLeast {pages | pages % size = 0 ∧ bytes ≤ pages} rounded := by
  obtain ⟨hwhole, henough, hclose⟩ := roundUp_eq_ok h
  refine ⟨⟨hwhole, henough⟩, ?_⟩
  rintro pages ⟨hpages, hroom⟩
  simp only [size] at *
  omega

end Page

namespace Memory

/-- Code memory of a system with room for one mapping of a length. -/
def roomy (length : Nat) : Memory :=
  { largestMapping := length, limit := ({} : Memory).next + length + Page.size }

/-- Where there is room for a mapping it is granted. -/
theorem map_roomy (length : Nat) :
    (map length).Ensures (roomy length) (fun _ _ => True) fun _ _ => False := by
  have hgranted : (roomy length).grantsMap length = true := by
    have hsite : (roomy length).site = 0x200000000000 := rfl
    have haligned : Page.aligned 0x200000000000 = true := by decide
    simp only [grantsMap, hsite, haligned, Bool.and_eq_true, decide_eq_true_eq, and_true]
    exact ⟨⟨⟨⟨rfl, Nat.le_refl _⟩, by decide⟩, Nat.le_refl _⟩, rfl⟩
  rw [map, Op.ensures_bind, Op.ensures_get, if_pos hgranted, Op.ensures_bind, Op.ensures_set,
    Op.ensures_pure]
  trivial

end Memory

/-- A claim on a segment, and where the piece starts if it was accepted. -/
structure Claim where
  /-- The number of bytes asked for. -/
  size : UInt64
  /-- The offset of the piece. -/
  offset? : Option Nat
  deriving DecidableEq

namespace Claim

/-- The pieces that claims were given, each as an offset and a number of bytes. -/
def pieces (claims : List Claim) : List (Nat × Nat) :=
  claims.filterMap fun claim => claim.offset?.map (·, claim.size.toNat)

/-- The number of bytes in all pieces that claims were given. -/
def total (claims : List Claim) : Nat := (pieces claims).foldl (fun room piece => room + piece.2) 0

/-- Where a piece starts that is claimed after others: where they end, if there is room for it. -/
def answer? (capacity : Nat) (earlier : List Claim) (size : UInt64) : Option Nat :=
  if total earlier + size.toNat ≤ capacity then some (total earlier) else none

variable (claims : List Claim) (size : UInt64)

/-- A claim that is accepted has a piece of its own. -/
@[simp] theorem pieces_accept (offset : Nat) :
    pieces (claims ++ [⟨size, some offset⟩]) = pieces claims ++ [(offset, size.toNat)] := by
  simp [pieces]

/-- A claim that is not accepted has no piece. -/
@[simp] theorem pieces_refuse : pieces (claims ++ [⟨size, none⟩]) = pieces claims := by
  simp [pieces]

/-- A claim that is accepted counts. -/
@[simp] theorem total_accept (offset : Nat) :
    total (claims ++ [⟨size, some offset⟩]) = total claims + size.toNat := by
  simp [total]

/-- A claim that is not accepted does not count. -/
@[simp] theorem total_refuse : total (claims ++ [⟨size, none⟩]) = total claims := by
  simp [total]

end Claim

namespace Segment

open Claim (pieces total answer?)

variable {request : UInt64} {segment : Segment} {claims : List Claim} {memory after : Memory}

/-- A segment that was reserved, with the claims of whole pages made on it since, the first one first. -/
inductive Carved (request : UInt64) (segment : Segment) : List Claim → Memory → Prop where
  /-- No claim has been made. -/
  | reserve {before after : Memory} (hreserve : reserve request.toNat before = .ok segment after) :
    Carved request segment [] after
  /-- One claim more is made, and it is accepted or not. -/
  | claim {claims : List Claim} {memory after : Memory} {size : UInt64} {result : Except Fault Nat}
      (hcarved : Carved request segment claims memory) (hpages : size.toNat % Page.size = 0)
      (hend : (segment.claim size.toNat).ending memory = (result, after)) :
    Carved request segment (claims ++ [⟨size, result.toOption⟩]) after
  /-- Something else has happened to memory, and as much of the segment is in use as before. -/
  | elsewhere {claims : List Claim} {memory after : Memory}
      (hcarved : Carved request segment claims memory)
      (hsame : segment.length after = segment.length memory) : Carved request segment claims after

/-- Any number of pages that can be asked for can be reserved, given a system that has them. -/
theorem Carved.exists_of_roundUp {capacity : Nat} (hround : Page.roundUp request.toNat = .ok capacity) :
    ∃ segment memory, Carved request segment [] memory ∧ segment.capacity = capacity := by
  have hobtain : (obtain request.toNat).Ensures (Memory.roomy capacity)
      (fun segment _ => segment.capacity = capacity) fun _ _ => False := by
    refine obtain_ensures_of (fun cause hrefused => ?_) (fun hnone => ?_) fun needed hneeded _ => ?_
    · simp only [hround, reduceCtorEq] at hrefused
    · exact Except.ok.inj (hnone.symm.trans hround)
    · obtain rfl := Except.ok.inj (hround.symm.trans hneeded)
      exact (Memory.map_roomy capacity).mono (fun _ _ _ => rfl) fun _ _ h => h
  have hreserve : (Segment.reserve request.toNat).Ensures (Memory.roomy capacity)
      (fun segment _ => segment.capacity = capacity) fun _ _ => False := by
    refine hobtain.bind (fun segment after hcapacity => ?_) fun _ _ h => h
    rwa [Op.ensures_bind, Op.ensures_modify, Op.ensures_pure]
  cases hend : Segment.reserve request.toNat (Memory.roomy capacity) with
  | ok segment memory => exact ⟨segment, memory, .reserve hend, hreserve.of_ok hend⟩
  | error fault memory => exact (hreserve.of_error hend).elim

/-- A claim that fits is given the room after everything that is in use. -/
theorem claim_eq_ok {bytes : Nat} (hfits : segment.fits memory bytes = true) :
    segment.claim bytes memory = .ok (segment.length memory)
      (memory.setInUse segment.base (segment.length memory + bytes)) := by
  change EStateM.bind (Op.require (segment.fits memory bytes) .overclaimed) _ memory = _
  rw [hfits]
  rfl

/-- A claim that does not fit is a violation, and leaves memory as it was. -/
theorem claim_eq_error {bytes : Nat} (hfull : segment.fits memory bytes = false) :
    segment.claim bytes memory = .error (.violation .overclaimed) memory := by
  change EStateM.bind (Op.require (segment.fits memory bytes) .overclaimed) _ memory = _
  rw [hfull]
  rfl

/-- A claim is answered by where the room in use ends, or is a violation. -/
theorem claim_ending (segment : Segment) (memory : Memory) (bytes : Nat) :
    (segment.claim bytes).ending memory =
      if segment.fits memory bytes then
        (.ok (segment.length memory),
          memory.setInUse segment.base (segment.length memory + bytes))
      else (.error (.violation .overclaimed), memory) := by
  unfold Op.ending
  cases hfits : segment.fits memory bytes with
  | true => rw [claim_eq_ok hfits, if_pos rfl]
  | false => rw [claim_eq_error hfits, if_neg Bool.false_ne_true]

/-- A claim fits if it does after what is in use. -/
theorem fits_iff (bytes : Nat) :
    segment.fits memory bytes = true ↔ segment.length memory + bytes ≤ segment.capacity := by
  simp only [fits, Bool.and_eq_true, decide_eq_true_eq]
  omega

/-- The test for room in 64-bit words, in which a difference below zero would wrap around. -/
def fitsWord (capacity length bytes : UInt64) : Bool :=
  bytes ≤ capacity && length ≤ capacity - bytes

/-- The test for room in 64-bit words is the one in natural numbers. -/
theorem fits_toNat (hcapacity : segment.capacity < UInt64.size)
    (hroom : segment.length memory ≤ segment.capacity) (bytes : UInt64) :
    segment.fits memory bytes.toNat =
      fitsWord (UInt64.ofNat segment.capacity) (UInt64.ofNat (segment.length memory)) bytes := by
  have hall : (UInt64.ofNat segment.capacity).toNat = segment.capacity :=
    UInt64.toNat_ofNat_of_lt' hcapacity
  have hused : (UInt64.ofNat (segment.length memory)).toNat = segment.length memory :=
    UInt64.toNat_ofNat_of_lt' (by omega)
  unfold fits fitsWord
  by_cases hle : bytes.toNat ≤ segment.capacity
  · have hword : bytes ≤ UInt64.ofNat segment.capacity := by rwa [UInt64.le_iff_toNat_le, hall]
    simp [hle, hword, UInt64.le_iff_toNat_le, UInt64.toNat_sub_of_le _ _ hword, hall, hused]
  · have hword : ¬ bytes ≤ UInt64.ofNat segment.capacity := by rwa [UInt64.le_iff_toNat_le, hall]
    simp [hle, hword]

/-- Whether the pieces that claims were given lie one behind the other on pages, from the start of a
segment to where the room in use of it ends, and no claim was refused that there was room for. -/
structure Stacked (segment : Segment) (claims : List Claim) (memory : Memory) : Prop where
  used : segment.length memory = total claims
  whole : ∀ i, total (claims.take i) % Page.size = 0
  below : ∀ piece ∈ pieces claims, piece.1 + piece.2 ≤ total claims
  apart : (pieces claims).Pairwise Apart
  answered : ∀ (i : Nat) (claim : Claim), claims[i]? = some claim →
    claim.offset? = answer? segment.capacity (claims.take i) claim.size

/-- Where a segment is reserved there are no pieces yet. -/
theorem stacked_nil (hnone : segment.length memory = 0) : Stacked segment [] memory where
  used := hnone
  whole i := by rw [List.take_nil]; rfl
  below := List.forall_mem_nil _
  apart := List.Pairwise.nil
  answered i claim hclaim := by simp at hclaim

/-- All pieces together are whole pages. -/
theorem Stacked.total_mod (h : Stacked segment claims memory) : total claims % Page.size = 0 := by
  have hall := h.whole claims.length
  rwa [List.take_length] at hall

/-- The sizes that claims add up to stay whole pages with one claim more. -/
theorem Stacked.whole_concat (h : Stacked segment claims memory) {last : Claim}
    (hlast : total (claims ++ [last]) % Page.size = 0) (i : Nat) :
    total ((claims ++ [last]).take i) % Page.size = 0 := by
  by_cases hearlier : i ≤ claims.length
  · rw [List.take_append_of_le_length hearlier]
    exact h.whole i
  · rw [List.take_of_length_le (by rw [List.length_append, List.length_singleton]; omega)]
    exact hlast

/-- Every claim is answered rightly if the last one is and the earlier ones were. -/
theorem Stacked.answered_concat (h : Stacked segment claims memory) {last : Claim}
    (hlast : last.offset? = answer? segment.capacity claims last.size) (i : Nat) (claim : Claim)
    (hclaim : (claims ++ [last])[i]? = some claim) :
    claim.offset? = answer? segment.capacity ((claims ++ [last]).take i) claim.size := by
  by_cases hearlier : i < claims.length
  · rw [List.getElem?_append_left hearlier] at hclaim
    rw [List.take_append_of_le_length (Nat.le_of_lt hearlier)]
    exact h.answered i claim hclaim
  · have hi : i = claims.length := by
      have hbound : i < (claims ++ [last]).length := (List.getElem?_eq_some_iff.mp hclaim).1
      rw [List.length_append, List.length_singleton] at hbound
      omega
    rw [hi, List.getElem?_concat_length] at hclaim
    rw [hi, List.take_left, ← Option.some.inj hclaim]
    exact hlast

/-- A claim that there is room for puts a piece on top. -/
theorem Stacked.accept (h : Stacked segment claims memory) {size : UInt64}
    (hpages : size.toNat % Page.size = 0) (hfits : segment.fits memory size.toNat = true) :
    Stacked segment (claims ++ [⟨size, some (segment.length memory)⟩])
      (memory.setInUse segment.base (segment.length memory + size.toNat)) where
  used := by rw [length_setInUse, Claim.total_accept, h.used]
  whole := by
    apply h.whole_concat
    rw [Claim.total_accept, Nat.add_mod, h.total_mod, hpages]
    rfl
  below := by
    simp only [Claim.pieces_accept, Claim.total_accept, List.forall_mem_append, List.forall_mem_singleton]
    constructor
    · intro piece hpiece
      exact Nat.le_trans (h.below piece hpiece) (Nat.le_add_right _ _)
    · rw [h.used]
  apart := by
    rw [Claim.pieces_accept, List.pairwise_append]
    refine ⟨h.apart, List.pairwise_singleton _ _, ?_⟩
    intro piece hpiece last hlast
    rw [List.mem_singleton.mp hlast]
    left
    rw [h.used]
    exact h.below piece hpiece
  answered := by
    apply h.answered_concat
    rw [fits_iff, h.used] at hfits
    rw [answer?, if_pos hfits, h.used]

/-- A claim that there is no room for leaves the pieces as they are. -/
theorem Stacked.refuse (h : Stacked segment claims memory) {size : UInt64}
    (hfull : ¬ segment.fits memory size.toNat = true) :
    Stacked segment (claims ++ [⟨size, none⟩]) memory where
  used := by rw [Claim.total_refuse, h.used]
  whole := by
    apply h.whole_concat
    rw [Claim.total_refuse, h.total_mod]
  below := by
    rw [Claim.pieces_refuse, Claim.total_refuse]
    exact h.below
  apart := by
    rw [Claim.pieces_refuse]
    exact h.apart
  answered := by
    apply h.answered_concat
    rw [fits_iff, h.used] at hfull
    rw [answer?, if_neg hfull]

namespace Carved

/-- A segment that is carved up is one that has come to be in code memory. -/
theorem live (h : Carved request segment claims memory) : segment.Live memory := by
  induction h with
  | reserve hreserve => exact .reserved hreserve
  | @claim claims memory after size result hcarved hpages hend ih =>
    rw [claim_ending] at hend
    split at hend
    · rename_i hfits
      cases hend
      exact .claimed ih (claim_eq_ok hfits)
    · cases hend
      exact ih
  | elsewhere hcarved hsame ih => exact .kept ih hsame

/-- The capacity of a segment is what was asked for, rounded up to pages. -/
theorem roundUp_eq (h : Carved request segment claims memory) :
    Page.roundUp request.toNat = .ok segment.capacity := by
  induction h with
  | reserve hreserve => exact ((reserve_capacity _).of_ok hreserve).1
  | claim hcarved hpages hend ih => exact ih
  | elsewhere hcarved hsame ih => exact ih

/-- The pieces of a segment lie one behind the other, whatever claims are made. -/
theorem stacked (h : Carved request segment claims memory) : Stacked segment claims memory := by
  induction h with
  | reserve hreserve => exact stacked_nil ((reserve_capacity _).of_ok hreserve).2
  | @claim claims memory after size result hcarved hpages hend ih =>
    rw [claim_ending] at hend
    split at hend
    · rename_i hfits
      cases hend
      exact ih.accept hpages hfits
    · rename_i hfull
      cases hend
      exact ih.refuse hfull
  | elsewhere hcarved hsame ih => exact { ih with used := hsame.trans ih.used }

/-- A claim can be made at any time, and is answered as there is room. -/
theorem exists_claim (h : Carved request segment claims memory) (size : UInt64)
    (hpages : size.toNat % Page.size = 0) :
    ∃ after, Carved request segment (claims ++ [⟨size, answer? segment.capacity claims size⟩]) after := by
  have hclaim := h.claim hpages rfl
  have hanswer := hclaim.stacked.answered claims.length _ List.getElem?_concat_length
  rw [List.take_left] at hanswer
  rw [← hanswer]
  exact ⟨_, hclaim⟩

end Carved

/-- Claims on a segment never overlap. It has the least number of whole pages that is enough for what it
was reserved for. Each claim was given a piece if and only if there was room for it after all pieces given
before, and the piece starts where they end, which is on a page. The pieces have nothing in common and lie
within the segment, and what is in use is all of them. Any claim from now on is a violation if and only if
it comes to more than is left, which is what the test in 64-bit words says, and changes nothing then. -/
theorem claims_never_overlap (h : Carved request segment claims memory) :
    (IsLeast {bytes | bytes % Page.size = 0 ∧ request.toNat ≤ bytes} segment.capacity ∧
      Page.roundUpWord request = some (UInt64.ofNat segment.capacity) ∧
      segment.capacity < UInt64.size) ∧
    (∀ (i : Nat) (claim : Claim), claims[i]? = some claim →
      claim.offset? = answer? segment.capacity (claims.take i) claim.size ∧
        total (claims.take i) % Page.size = 0) ∧
    ((pieces claims).Pairwise Apart ∧
      ∀ piece ∈ pieces claims, piece.1 + piece.2 ≤ segment.capacity) ∧
    (segment.length memory = total claims ∧ total claims ≤ segment.capacity) ∧
    ∀ size : UInt64,
      fitsWord (UInt64.ofNat segment.capacity) (UInt64.ofNat (segment.length memory)) size =
        decide (total claims + size.toNat ≤ segment.capacity) ∧
      (segment.claim size.toNat).ending memory =
        if total claims + size.toNat ≤ segment.capacity then
          (.ok (total claims), memory.setInUse segment.base (total claims + size.toNat))
        else (.error (.violation .overclaimed), memory) := by
  have hround := h.roundUp_eq
  have hstacked := h.stacked
  have hroom : total claims ≤ segment.capacity := by
    rw [← hstacked.used]
    exact h.live.length_le_capacity
  obtain ⟨capacity, hword, hcapacity⟩ := Page.exists_roundUpWord hround
  have hsmall : segment.capacity < UInt64.size := by
    rw [← hcapacity]
    exact capacity.toNat_lt_size
  rw [← UInt64.ofNat_toNat (x := capacity), hcapacity] at hword
  refine ⟨⟨Page.isLeast_of_roundUp hround, hword, hsmall⟩, ?_, ⟨hstacked.apart, ?_⟩,
    ⟨hstacked.used, hroom⟩, ?_⟩
  · intro i claim hclaim
    exact ⟨hstacked.answered i claim hclaim, hstacked.whole i⟩
  · intro piece hpiece
    exact Nat.le_trans (hstacked.below piece hpiece) hroom
  · intro size
    have hfits : segment.fits memory size.toNat =
        decide (total claims + size.toNat ≤ segment.capacity) := by
      rw [Bool.eq_iff_iff, fits_iff, hstacked.used, decide_eq_true_eq]
    constructor
    · rw [← fits_toNat hsmall (hstacked.used ▸ hroom), hfits]
    · simp only [claim_ending, hfits, decide_eq_true_eq, hstacked.used]

/-- A segment of two pages is used up by two claims, one before and one after a claim that is too large by
a page. A claim of nearly all bytes that can be counted is refused as well, and so is one more page. A
segment that has nearly all bytes that can be counted is used up by a claim of half of them and one of the
rest, between which half of them is refused once more, as the sum would be too large to count. -/
theorem claims_never_overlap_until_used_up :
    (∃ (segment : Segment) (memory : Memory),
      Carved 5000 segment
        [⟨0x1000, some 0⟩, ⟨0x2000, none⟩, ⟨0x1000, some 0x1000⟩, ⟨0xfffffffffffff000, none⟩] memory ∧
      segment.capacity = 0x2000 ∧ segment.length memory = 0x2000 ∧
      (segment.claim 0x1000).ending memory = (.error (.violation .overclaimed), memory)) ∧
    ∃ (segment : Segment) (memory : Memory),
      Carved 0xffffffffffffefff segment
        [⟨0x8000000000000000, some 0⟩, ⟨0x8000000000000000, none⟩,
          ⟨0x7ffffffffffff000, some 0x8000000000000000⟩] memory ∧
      segment.capacity = 0xfffffffffffff000 ∧ segment.length memory = 0xfffffffffffff000 ∧
      (segment.claim 0x1000).ending memory = (.error (.violation .overclaimed), memory) := by
  have hfew : Page.roundUp (5000 : UInt64).toNat = .ok 0x2000 := by decide
  have hmany : Page.roundUp (0xffffffffffffefff : UInt64).toNat = .ok 0xfffffffffffff000 := by decide
  constructor
  · obtain ⟨segment, _, carved, hcapacity⟩ := Carved.exists_of_roundUp hfew
    obtain ⟨_, carved⟩ := carved.exists_claim 0x1000 rfl
    obtain ⟨_, carved⟩ := carved.exists_claim 0x2000 rfl
    obtain ⟨_, carved⟩ := carved.exists_claim 0x1000 rfl
    obtain ⟨memory, carved⟩ := carved.exists_claim 0xfffffffffffff000 rfl
    rw [hcapacity] at carved
    obtain ⟨-, -, -, ⟨hlength, -⟩, hnext⟩ := claims_never_overlap carved
    have hfull := (hnext 0x1000).2
    rw [hcapacity] at hfull
    exact ⟨segment, memory, carved, hcapacity, hlength, hfull⟩
  · obtain ⟨segment, _, carved, hcapacity⟩ := Carved.exists_of_roundUp hmany
    obtain ⟨_, carved⟩ := carved.exists_claim 0x8000000000000000 rfl
    obtain ⟨_, carved⟩ := carved.exists_claim 0x8000000000000000 rfl
    obtain ⟨memory, carved⟩ := carved.exists_claim 0x7ffffffffffff000 rfl
    rw [hcapacity] at carved
    obtain ⟨-, -, -, ⟨hlength, -⟩, hnext⟩ := claims_never_overlap carved
    have hfull := (hnext 0x1000).2
    rw [hcapacity] at hfull
    exact ⟨segment, memory, carved, hcapacity, hlength, hfull⟩

end Segment

end CompiledCode

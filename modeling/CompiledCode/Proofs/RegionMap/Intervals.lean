import CompiledCode.Proofs.RegionMap.Snapshot
import Mathlib

/-!
# A map as a set of disjoint intervals

Used by one thread alone, a map stands for a set of regions that occupy disjoint half-open
intervals of addresses. A lookup finds the member that contains the address, an insertion
adds a member if its interval is not empty and meets no other one, and a removal takes a
member out. Everything else is refused by a violation, which leaves the map as it was; so does
an insertion for which there is no memory.

The set is defined by the calls that were made, and not by the entries of the map. That
removal goes by identity is all that identities are assumed to be for: two regions that
anyone ever hands to the map have different ones.
-/

namespace CompiledCode

variable {ρ : Type} [Region ρ]

/-- The half-open interval of addresses that a region occupies. -/
def Region.span (region : ρ) : Set Nat := Set.Ico (Region.start region) (Region.stop region)

/-- A region occupies an address if and only if its interval has the address. -/
theorem Region.mem_span (region : ρ) (pc : Nat) : pc ∈ Region.span region ↔ Region.Holds region pc :=
  Iff.rfl

/-- A region has addresses if and only if it starts before it stops. -/
theorem Region.span_nonempty (region : ρ) :
    (Region.span region).Nonempty ↔ Region.start region < Region.stop region := Set.nonempty_Ico

/-- Regions with addresses share none of them if and only if one stops where the other starts, or
before. -/
theorem Region.disjoint_span {region other : ρ} (hsome : Region.start region < Region.stop region)
    (hother : Region.start other < Region.stop other) :
    Disjoint (Region.span region) (Region.span other) ↔
      Region.stop region ≤ Region.start other ∨ Region.stop other ≤ Region.start region := by
  rw [Region.span, Region.span, Set.Ico_disjoint_Ico]
  omega

namespace RegionMap

/-- Whether a region can become a member: it has addresses, and none that a member has. -/
def Fits (region : ρ) (regions : Set ρ) : Prop :=
  (Region.span region).Nonempty ∧ ∀ other ∈ regions, Disjoint (Region.span region) (Region.span other)

/-- What does not fit has no addresses, or meets a member. -/
theorem not_fits_iff (region : ρ) (regions : Set ρ) :
    ¬Fits region regions ↔ Region.stop region ≤ Region.start region ∨
      ∃ other ∈ regions, ¬Disjoint (Region.span region) (Region.span other) := by
  rw [Fits, Region.span_nonempty, not_and_or, not_lt]
  push Not
  rfl

/-- A map that insertions and removals have led to, none of which was violated, with the regions
that were inserted and not removed since. The regions handed to the map are among `objects`. -/
inductive Edited (objects : Set ρ) : RegionMap ρ → Set ρ → Prop where
  /-- A new map. -/
  | new : Edited objects {} ∅
  /-- A region was inserted. -/
  | inserted {map after : RegionMap ρ} {regions : Set ρ} {region : ρ} {room : Bool}
      (h : Edited objects map regions) (hobject : region ∈ objects)
      (hinsert : RegionMap.insert region room map = .ok () after) :
      Edited objects after (Insert.insert region regions)
  /-- An insertion failed, as there was no memory for it. -/
  | refused {map after : RegionMap ρ} {regions : Set ρ} {region : ρ} {room : Bool} {failure : Failure}
      (h : Edited objects map regions) (hobject : region ∈ objects)
      (hinsert : RegionMap.insert region room map = .error (.failure failure) after) :
      Edited objects after regions
  /-- A region was removed. -/
  | removed {map after : RegionMap ρ} {regions : Set ρ} {region : ρ} {left : Nat}
      (h : Edited objects map regions) (hobject : region ∈ objects)
      (hremove : RegionMap.remove region map = .ok left after) :
      Edited objects after (regions \ {region})

omit [Region ρ] in
/-- An update of a map whose buffers agree makes its change in both of them, or violates and
changes nothing. -/
theorem ensures_update {change : List (RegionEntry ρ) → Except Violation (List (RegionEntry ρ))}
    {map : RegionMap ρ} (hagree : map.spare = map.published) :
    (update change).Ensures map
      (fun _ after => change map.published = .ok after.published ∧ after.spare = after.published)
      (fun fault after => after = map ∧ ∃ violation,
        fault = .violation violation ∧ change map.published = .error violation) := by
  cases hchange : change map.published with
  | ok entries =>
    obtain ⟨updated, hupdate, hspare, hpublished⟩ := exists_update_eq_ok hagree hchange
    refine (Op.ensures_iff_of_ok hupdate).mpr ⟨?_, hspare.trans hpublished.symm⟩
    rw [hpublished]
  | error violation =>
    have hupdate := update_eq_error (hagree ▸ hchange : change map.spare = .error violation)
    exact (Op.ensures_iff_of_error hupdate).mpr ⟨rfl, violation, rfl, rfl⟩

section Settled

variable {map : RegionMap ρ} {regions : Set ρ}

/-- Among the entries of a settled map there is a place for exactly the regions that fit. -/
theorem Settled.exists_insert_eq_ok_iff (hmap : map.Settled regions) {region : ρ}
    (hsome : Region.start region < Region.stop region) :
    (∃ entries, (RegionEntry.ofRegion region).insert map.published = .ok entries) ↔
      Fits region regions := by
  constructor
  · rintro ⟨entries, hentries⟩
    refine ⟨(Region.span_nonempty region).mpr hsome, fun other hother => ?_⟩
    have hapart := RegionEntry.apart_of_insert_eq_ok hmap.lists.toTidy hentries
      (RegionEntry.ofRegion other) ((hmap.lists.mem_iff _).mpr ⟨hother, rfl⟩)
    exact (Region.disjoint_span hsome (hmap.lists.start_lt_stop hother)).mpr hapart
  · rintro ⟨-, hdisjoint⟩
    refine RegionEntry.exists_insert_eq_ok hmap.lists.toTidy fun other hother => ?_
    obtain ⟨hin, heq⟩ := (hmap.lists.mem_iff other).mp hother
    rw [heq]
    exact (Region.disjoint_span hsome (hmap.lists.start_lt_stop hin)).mp (hdisjoint _ hin)

/-- A region is registered if it fits and there is room, and otherwise nothing changes: what does
not fit violates, and the lack of room is a failure. -/
theorem Settled.insert_answers (hmap : map.Settled regions) (region : ρ) (room : Bool) :
    (RegionMap.insert region room).Ensures map
      (fun _ after => Fits region regions ∧ room = true ∧
        after.Settled (Insert.insert region regions))
      (fun fault after => after = map ∧ (fault.isViolation = true ↔ ¬Fits region regions) ∧
        (fault.isViolation = false → room = false)) := by
  rw [RegionMap.insert, Op.ensures_bind, Op.ensures_require]
  by_cases hsome : Region.start region < Region.stop region
  · have hfits := hmap.exists_insert_eq_ok_iff hsome
    rw [if_pos (decide_eq_true hsome)]
    cases room with
    | true =>
      refine (ensures_update hmap.agree).mono ?_ ?_
      · rintro - after ⟨hentries, hagree⟩
        exact ⟨hfits.mp ⟨_, hentries⟩, rfl, hagree, hmap.lists.insert hsome hentries⟩
      · rintro - after ⟨rfl, violation, rfl, hviolated⟩
        refine ⟨rfl, iff_of_true rfl fun h => ?_, fun h => absurd h (by simp [Fault.isViolation])⟩
        obtain ⟨entries, hentries⟩ := hfits.mpr h
        cases hviolated.symm.trans hentries
    | false =>
      change (get >>= fun (now : RegionMap ρ) => Op.ofChecked
        ((RegionEntry.ofRegion region).insert now.spare) >>= fun _ => Op.fail _ : Op _ Unit).Ensures ..
      rw [Op.ensures_bind, Op.ensures_get, Op.ensures_bind, hmap.agree, Op.ensures_ofChecked]
      cases hentries : (RegionEntry.ofRegion region).insert map.published with
      | ok entries =>
        have hroom := hfits.mp ⟨entries, hentries⟩
        exact (Op.ensures_fail _).mpr
          ⟨rfl, iff_of_false (by simp [Fault.isViolation]) (not_not.mpr hroom), fun _ => rfl⟩
      | error violation =>
        refine ⟨rfl, iff_of_true rfl fun h => ?_, fun _ => rfl⟩
        obtain ⟨entries, hok⟩ := hfits.mpr h
        cases hentries.symm.trans hok
  · rw [if_neg (by simpa using hsome)]
    refine ⟨rfl, iff_of_true rfl fun h => hsome ((Region.span_nonempty region).mp h.1), fun h => ?_⟩
    exact absurd h (by simp [Fault.isViolation])

/-- A member is removed, and anything else violates and changes nothing. -/
theorem Settled.remove_answers (hmap : map.Settled regions) {region : ρ}
    (hidentity : ∀ other ∈ regions,
      Region.identity other = Region.identity region → other = region) :
    (RegionMap.remove region).Ensures map
      (fun left after => region ∈ regions ∧ left = (regions \ {region}).ncard ∧
        after.Settled (regions \ {region}))
      (fun fault after => after = map ∧ fault.isViolation = true ∧ region ∉ regions) := by
  rw [RegionMap.remove, Op.ensures_bind]
  refine (ensures_update hmap.agree).mono ?_ ?_
  · rintro - after ⟨herase, hagree⟩
    have hlists := hmap.lists.erase hidentity herase
    rw [Op.ensures_bind, Op.ensures_get, Op.ensures_pure, hagree]
    exact ⟨hmap.lists.mem_of_erase_eq_ok hidentity herase, hlists.ncard.symm, hagree, hlists⟩
  · rintro - after ⟨rfl, violation, rfl, hviolated⟩
    refine ⟨rfl, rfl, fun hin => ?_⟩
    obtain ⟨entries, hentries⟩ := hmap.lists.exists_erase_eq_ok hin
    cases hviolated.symm.trans hentries

end Settled

section Edited

variable {objects : Set ρ} {map : RegionMap ρ} {regions : Set ρ}

/-- The members are among the regions that were handed to the map. -/
theorem Edited.subset (h : Edited objects map regions) : regions ⊆ objects := by
  induction h with
  | new => exact Set.empty_subset _
  | inserted _ hobject _ ih => exact Set.insert_subset hobject ih
  | refused _ _ _ ih => exact ih
  | removed _ _ _ ih => exact Set.sdiff_subset.trans ih

/-- No member but the region itself has the identity of a region handed to the map. -/
theorem Edited.eq_of_identity (h : Edited objects map regions)
    (hidentity : objects.InjOn Region.identity) {region : ρ} (hobject : region ∈ objects) :
    ∀ other ∈ regions, Region.identity other = Region.identity region → other = region :=
  fun _ hother hsame => hidentity (h.subset hother) hobject hsame

/-- Between calls both buffers list the members. -/
theorem Edited.settled (h : Edited objects map regions) (hidentity : objects.InjOn Region.identity) :
    map.Settled regions := by
  induction h with
  | new => exact settled_empty
  | inserted _ _ hinsert ih => exact ((ih.insert_answers _ _).of_ok hinsert).2.2
  | refused _ _ hinsert ih => exact ((ih.insert_answers _ _).of_error hinsert).1 ▸ ih
  | removed h hobject hremove ih =>
    exact ((ih.remove_answers (h.eq_of_identity hidentity hobject)).of_ok hremove).2.2

/-- After any insertions and removals that were not violated, a map answers as the set of the
regions inserted and not removed since, which occupy disjoint intervals: a lookup finds the member
that has the address, and the code range that the member knows there; the size is the number of
members; an insertion violates exactly for a region without addresses or one that meets a member,
and fails only for want of memory; a removal violates exactly for what is no member, and otherwise
answers how many are left. Whatever fails or violates leaves the map as it was. -/
theorem refines_disjoint_intervals (h : Edited objects map regions)
    (hidentity : objects.InjOn Region.identity) :
    (regions.Finite ∧ (∀ region ∈ regions, (Region.span region).Nonempty) ∧
      regions.PairwiseDisjoint Region.span) ∧
    (∀ pc region, map.lookup pc = some region ↔ region ∈ regions ∧ pc ∈ Region.span region) ∧
    (∀ pc region range, map.lookupRange pc = some (region, range) ↔
      region ∈ regions ∧ pc ∈ Region.span region ∧ range = Region.rangeAt region pc) ∧
    map.size = regions.ncard ∧
    (∀ region ∈ objects, ∀ room,
      ((RegionMap.insert region room).Violates map ↔
        Region.stop region ≤ Region.start region ∨
          ∃ other ∈ regions, ¬Disjoint (Region.span region) (Region.span other)) ∧
      (RegionMap.insert region room).Ensures map (fun _ _ => room = true)
        (fun fault after => after = map ∧ (fault.isViolation = false → room = false))) ∧
    (∀ region ∈ objects,
      ((RegionMap.remove region).Violates map ↔ region ∉ regions) ∧
      (RegionMap.remove region).Ensures map (fun left _ => left = (regions \ {region}).ncard)
        (fun fault after => after = map ∧ fault.isViolation = true)) := by
  have hmap := h.settled hidentity
  have hlookup (pc : Nat) (region : ρ) :
      map.lookup pc = some region ↔ region ∈ regions ∧ pc ∈ Region.span region := by
    rw [Region.mem_span]
    exact hmap.lookup_eq_some_iff pc region
  refine ⟨⟨hmap.lists.finite, fun region hin => ?_, fun region hin other hother hne => ?_⟩, hlookup,
    fun pc region range => ?_, hmap.lists.ncard.symm, fun region hobject room => ⟨?_, ?_⟩,
    fun region hobject => ⟨?_, ?_⟩⟩
  · exact (Region.span_nonempty region).mpr (hmap.lists.start_lt_stop hin)
  · exact (Region.disjoint_span (hmap.lists.start_lt_stop hin) (hmap.lists.start_lt_stop hother)).mpr
      (hmap.lists.regions_apart hin hother hne)
  · rw [lookupRange, Option.map_eq_some_iff]
    constructor
    · rintro ⟨found, hfound, heq⟩
      cases heq
      exact ⟨((hlookup pc region).mp hfound).1, ((hlookup pc region).mp hfound).2, rfl⟩
    · rintro ⟨hin, hpc, rfl⟩
      exact ⟨region, (hlookup pc region).mpr ⟨hin, hpc⟩, rfl⟩
  · rw [← not_fits_iff]
    exact ((hmap.insert_answers region room).mono (fun _ _ hvalue => not_not.mpr hvalue.1)
      (fun _ _ hfault => hfault.2.1)).violates_iff
  · exact (hmap.insert_answers region room).mono (fun _ _ hvalue => hvalue.2.1)
      (fun _ _ hfault => ⟨hfault.1, hfault.2.2⟩)
  · exact ((hmap.remove_answers (h.eq_of_identity hidentity hobject)).mono
      (fun _ _ hvalue => not_not.mpr hvalue.1)
      (fun _ _ hfault => iff_of_true hfault.2.1 hfault.2.2)).violates_iff
  · exact (hmap.remove_answers (h.eq_of_identity hidentity hobject)).mono
      (fun _ _ hvalue => hvalue.2.1) (fun _ _ hfault => ⟨hfault.1, hfault.2.1⟩)

end Edited

/-- With one stretch inserted, one that touches its end can follow, while one in the middle of it
can not; and another stretch with the same addresses is not the one to remove. -/
theorem refines_disjoint_intervals_of_stretches :
    ∃ map : RegionMap Stretch, Edited {⟨1, 10, 20⟩, ⟨2, 20, 30⟩, ⟨3, 10, 20⟩} map {⟨1, 10, 20⟩} ∧
      map.lookup 19 = some ⟨1, 10, 20⟩ ∧ map.size = 1 ∧
      ¬(RegionMap.insert (⟨2, 20, 30⟩ : Stretch) true).Violates map ∧
      (RegionMap.insert (⟨3, 10, 20⟩ : Stretch) true).Violates map ∧
      (RegionMap.remove (⟨3, 10, 20⟩ : Stretch)).Violates map ∧
      ¬(RegionMap.remove (⟨1, 10, 20⟩ : Stretch)).Violates map := by
  let objects : Set Stretch := {⟨1, 10, 20⟩, ⟨2, 20, 30⟩, ⟨3, 10, 20⟩}
  have hidentity : objects.InjOn Region.identity := by
    rintro a (rfl | rfl | rfl) b (rfl | rfl | rfl) hsame
    all_goals first | rfl | exact absurd hsame (by decide)
  have hedited : Edited objects _ (Insert.insert ⟨1, 10, 20⟩ ∅) :=
    .inserted .new (Or.inl rfl) (rfl : RegionMap.insert (⟨1, 10, 20⟩ : Stretch) true {} = _)
  rw [insert_empty_eq] at hedited
  obtain ⟨-, hlookup, -, hsize, hinsert, hremove⟩ := refines_disjoint_intervals hedited hidentity
  refine ⟨_, hedited, (hlookup 19 _).mpr ⟨rfl, by decide, by decide⟩, ?_, ?_, ?_, ?_, ?_⟩
  · rw [hsize, Set.ncard_singleton]
  · rw [(hinsert ⟨2, 20, 30⟩ (Or.inr (Or.inl rfl)) true).1]
    rintro (hempty | ⟨other, rfl, hmeets⟩)
    · exact absurd hempty (by decide)
    · exact hmeets ((Region.disjoint_span (by decide) (by decide)).mpr (by decide))
  · refine (hinsert ⟨3, 10, 20⟩ (Or.inr (Or.inr rfl)) true).1.mpr (Or.inr ⟨_, rfl, fun happart => ?_⟩)
    exact absurd ((Region.disjoint_span (by decide) (by decide)).mp happart) (by decide)
  · refine (hremove ⟨3, 10, 20⟩ (Or.inr (Or.inr rfl))).1.mpr fun hin => ?_
    exact absurd (congrArg Stretch.number hin) (by decide)
  · exact fun hviolates => (hremove ⟨1, 10, 20⟩ (Or.inl rfl)).1.mp hviolates rfl

end RegionMap

end CompiledCode

import CompiledCode.Proofs.Bisection
import CompiledCode.RegionMap.Entries
import Mathlib.Data.List.Nodup
import Mathlib.Data.Set.Card
import Mathlib.Data.Set.Insert

/-!
# What sorted entries list

Entries list a set of regions if they are sorted, pairwise disjoint, never without an
address, and hold exactly the regions of the set. Insertion and removal keep this up
for the set with one region more or less, and a search answers with the one region of
the set that contains the address.

Removal goes by identity. It removes the right region provided that no other region
of the set has the same identity; nothing else is assumed about identities.
-/

namespace CompiledCode

variable {ρ : Type} [Region ρ]

/-- Whether a region contains an address. -/
def Region.Holds (region : ρ) (pc : Nat) : Prop :=
  Region.start region ≤ pc ∧ pc < Region.stop region

namespace RegionEntry

/-- Entries in order of their addresses, apart from each other and none without an address. -/
structure Tidy (entries : List (RegionEntry ρ)) : Prop where
  apart : entries.Pairwise fun a b => a.stop ≤ b.start
  nonempty : ∀ entry ∈ entries, entry.start < entry.stop

/-- Tidy entries for exactly the regions of a set. -/
structure Lists (entries : List (RegionEntry ρ)) (regions : Set ρ) : Prop extends Tidy entries where
  mem_iff : ∀ entry, entry ∈ entries ↔ entry.region ∈ regions ∧ entry = ofRegion entry.region

omit [Region ρ] in
/-- In tidy entries those that end by an address come first. -/
theorem Tidy.pairwise_stop_le {entries : List (RegionEntry ρ)} (htidy : Tidy entries) (pc : Nat) :
    entries.Pairwise fun a b => decide (b.stop ≤ pc) = true → decide (a.stop ≤ pc) = true := by
  refine (List.pairwise_iff_forall_sublist.mpr fun {a b} hsub hb => ?_)
  have hab : a.stop ≤ b.start := List.pairwise_iff_forall_sublist.mp htidy.apart hsub
  have hb' := htidy.nonempty b (hsub.subset (by simp))
  rw [decide_eq_true_eq] at hb ⊢
  omega

omit [Region ρ] in
/-- A search in tidy entries finds the one that contains the address. -/
theorem Tidy.find?_eq_some_iff {entries : List (RegionEntry ρ)} (htidy : Tidy entries) (pc : Nat)
    (entry : RegionEntry ρ) :
    find? entries pc = some entry ↔ entry ∈ entries ∧ entry.start ≤ pc ∧ pc < entry.stop := by
  have hsorted := htidy.pairwise_stop_le pc
  have hsplit := List.takeWhile_append_dropWhile
    (p := fun e : RegionEntry ρ => decide (e.stop ≤ pc)) (l := entries)
  rw [find?, getElem?_partitionPoint hsorted, Option.filter_eq_some_iff, decide_eq_true_eq]
  constructor
  · rintro ⟨hhead, hstart⟩
    have hmem := List.mem_of_mem_head? hhead
    have hstop := eq_false_of_mem_dropWhile hsorted hmem
    rw [decide_eq_false_iff_not] at hstop
    exact ⟨(List.dropWhile_sublist _).subset hmem, hstart, by omega⟩
  · rintro ⟨hmem, hstart, hstop⟩
    refine ⟨?_, hstart⟩
    have hafter : entry ∈ entries.dropWhile fun e => decide (e.stop ≤ pc) := by
      rw [← hsplit] at hmem
      refine (List.mem_append.mp hmem).resolve_left fun hbefore => ?_
      have hle := List.all_eq_true.mp List.all_takeWhile entry hbefore
      rw [decide_eq_true_eq] at hle
      omega
    cases hdrop : entries.dropWhile fun e => decide (e.stop ≤ pc) with
    | nil => simp [hdrop] at hafter
    | cons first rest =>
      rw [hdrop] at hafter
      rcases List.mem_cons.mp hafter with rfl | hrest
      · rfl
      · -- An entry before the one that contains the address would have ended by then.
        have hapart := htidy.apart.sublist (List.dropWhile_sublist fun e => decide (e.stop ≤ pc))
        rw [hdrop, List.pairwise_cons] at hapart
        have hfirst := hapart.1 entry hrest
        have hno := eq_false_of_mem_dropWhile hsorted
          (show first ∈ entries.dropWhile fun e => decide (e.stop ≤ pc) by simp [hdrop])
        rw [decide_eq_false_iff_not] at hno
        omega

omit [Region ρ] in
/-- In tidy entries no entry occurs twice. -/
theorem Tidy.nodup {entries : List (RegionEntry ρ)} (htidy : Tidy entries) : entries.Nodup := by
  refine List.pairwise_iff_forall_sublist.mpr fun {a b} hsub hab => ?_
  have hapart : a.stop ≤ b.start := List.pairwise_iff_forall_sublist.mp htidy.apart hsub
  have hsome := htidy.nonempty b (hsub.subset (by simp))
  rw [hab] at hapart
  omega

/-- The entries for a set of regions are the only ones for it. -/
theorem Lists.unique {entries others : List (RegionEntry ρ)} {regions : Set ρ}
    (h : Lists entries regions) (h' : Lists others regions) : entries = others := by
  have hperm : entries.Perm others := (List.perm_ext_iff_of_nodup h.nodup h'.nodup).mpr
    fun entry => (h.mem_iff entry).trans (h'.mem_iff entry).symm
  refine hperm.eq_of_pairwise (fun a b ha hb hab hba => ?_) h.apart h'.apart
  have hsome := h.nonempty a ha
  have hsome' := h'.nonempty b hb
  omega

omit [Region ρ] in
/-- An insertion that is not violated puts the entry between those before and those after it. -/
theorem insert_eq_ok {entry : RegionEntry ρ} {entries edited : List (RegionEntry ρ)}
    (htidy : Tidy entries) (h : insert entry entries = .ok edited) :
    edited = (entries.takeWhile fun e => decide (e.stop ≤ entry.start)) ++
        entry :: entries.dropWhile (fun e => decide (e.stop ≤ entry.start)) ∧
      ∀ other ∈ entries.dropWhile fun e => decide (e.stop ≤ entry.start),
        entry.stop ≤ other.start := by
  have hsorted := htidy.pairwise_stop_le entry.start
  have hput := insertIdx_partitionPoint hsorted entry
  rw [insert, getElem?_partitionPoint hsorted, hput] at h
  cases hdrop : entries.dropWhile fun e => decide (e.stop ≤ entry.start) with
  | nil =>
    rw [hdrop] at h
    simp only [List.head?_nil, Except.ok.injEq] at h
    exact ⟨h.symm, by simp⟩
  | cons next rest =>
    rw [hdrop] at h
    simp only [List.head?_cons] at h
    split at h
    · rename_i hroom
      refine ⟨(Except.ok.inj h).symm, fun other hother => ?_⟩
      have hlater := htidy.apart.sublist
        (List.dropWhile_sublist fun e => decide (e.stop ≤ entry.start))
      have htail := htidy.nonempty next
        ((List.dropWhile_sublist fun e => decide (e.stop ≤ entry.start)).subset (by simp [hdrop]))
      rw [hdrop, List.pairwise_cons] at hlater
      rcases List.mem_cons.mp hother with rfl | hrest
      · exact hroom
      · have := hlater.1 other hrest
        omega
    · contradiction

omit [Region ρ] in
/-- Where no other entry is, an insertion is not violated. -/
theorem exists_insert_eq_ok {entry : RegionEntry ρ} {entries : List (RegionEntry ρ)}
    (htidy : Tidy entries)
    (hapart : ∀ other ∈ entries, entry.stop ≤ other.start ∨ other.stop ≤ entry.start) :
    ∃ edited, insert entry entries = .ok edited := by
  have hsorted := htidy.pairwise_stop_le entry.start
  rw [insert, getElem?_partitionPoint hsorted]
  cases hdrop : entries.dropWhile fun e => decide (e.stop ≤ entry.start) with
  | nil => exact ⟨_, rfl⟩
  | cons next rest =>
    have hnext : next ∈ entries.dropWhile fun e => decide (e.stop ≤ entry.start) := by simp [hdrop]
    have hlater := eq_false_of_mem_dropWhile hsorted hnext
    rw [decide_eq_false_iff_not] at hlater
    have hroom := (hapart next ((List.dropWhile_sublist _).subset hnext)).resolve_right hlater
    exact ⟨_, if_pos hroom⟩

omit [Region ρ] in
/-- An insertion that is not violated is one where no other entry is. -/
theorem apart_of_insert_eq_ok {entry : RegionEntry ρ} {entries edited : List (RegionEntry ρ)}
    (htidy : Tidy entries) (h : insert entry entries = .ok edited) :
    ∀ other ∈ entries, entry.stop ≤ other.start ∨ other.stop ≤ entry.start := by
  intro other hother
  rw [← List.takeWhile_append_dropWhile
    (p := fun e : RegionEntry ρ => decide (e.stop ≤ entry.start)) (l := entries)] at hother
  rcases List.mem_append.mp hother with hbefore | hafter
  · exact Or.inr (by simpa using List.all_eq_true.mp List.all_takeWhile other hbefore)
  · exact Or.inl ((insert_eq_ok htidy h).2 other hafter)

/-- Inserting a region with addresses lists the set with that region. -/
theorem Lists.insert {entries edited : List (RegionEntry ρ)} {regions : Set ρ} {region : ρ}
    (hlists : Lists entries regions) (hsome : Region.start region < Region.stop region)
    (h : RegionEntry.insert (ofRegion region) entries = .ok edited) :
    Lists edited (Insert.insert region regions) := by
  obtain ⟨rfl, hroom⟩ := insert_eq_ok hlists.toTidy h
  have hsplit := List.takeWhile_append_dropWhile
    (p := fun e : RegionEntry ρ => decide (e.stop ≤ Region.start region)) (l := entries)
  have hbefore : ∀ e ∈ entries.takeWhile fun e => decide (e.stop ≤ Region.start region),
      e.stop ≤ Region.start region := fun e he => by
    simpa using List.all_eq_true.mp List.all_takeWhile e he
  have hmem (e : RegionEntry ρ) :
      e ∈ (entries.takeWhile fun e => decide (e.stop ≤ Region.start region)) ++
          ofRegion region :: entries.dropWhile (fun e => decide (e.stop ≤ Region.start region)) ↔
        e = ofRegion region ∨ e ∈ entries := by
    rw [List.mem_append, List.mem_cons, ← or_assoc, or_comm (a := e ∈ entries.takeWhile _),
      or_assoc, ← List.mem_append, hsplit]
  refine { apart := ?_, nonempty := fun e he => ?_, mem_iff := fun e => ?_ }
  · refine List.pairwise_append.mpr ⟨hlists.apart.sublist (List.takeWhile_sublist _),
      List.pairwise_cons.mpr ⟨hroom, hlists.apart.sublist (List.dropWhile_sublist _)⟩, ?_⟩
    intro a ha b hb
    rcases List.mem_cons.mp hb with rfl | hb
    · exact hbefore a ha
    · have hpair := hlists.apart
      rw [← hsplit, List.pairwise_append] at hpair
      exact hpair.2.2 a ha b hb
  · rcases (hmem e).mp he with rfl | he
    · exact hsome
    · exact hlists.nonempty e he
  · rw [show RegionEntry.start (ofRegion region) = Region.start region from rfl, hmem e,
      Set.mem_insert_iff, hlists.mem_iff e]
    constructor
    · rintro (rfl | ⟨hin, heq⟩)
      · exact ⟨Or.inl rfl, rfl⟩
      · exact ⟨Or.inr hin, heq⟩
    · rintro ⟨rfl | hin, heq⟩
      · exact Or.inl heq
      · exact Or.inr ⟨hin, heq⟩

/-- An erasure that is not violated takes out an entry of a region with the identity given. -/
theorem erase_eq_ok {region : ρ} {entries edited : List (RegionEntry ρ)}
    (h : erase region entries = .ok edited) :
    ∃ (index : Nat) (hindex : index < entries.length),
      Region.identity entries[index].region = Region.identity region ∧
        edited = entries.eraseIdx index := by
  rw [erase] at h
  split at h
  · rename_i index hfind
    obtain ⟨hindex, hsame, -⟩ := List.findIdx?_eq_some_iff_getElem.mp hfind
    exact ⟨index, hindex, by simpa using hsame, (Except.ok.inj h).symm⟩
  · contradiction

/-- A region that is listed can be erased. -/
theorem Lists.exists_erase_eq_ok {entries : List (RegionEntry ρ)} {regions : Set ρ} {region : ρ}
    (hlists : Lists entries regions) (hin : region ∈ regions) :
    ∃ edited, RegionEntry.erase region entries = .ok edited := by
  have hmem : ofRegion region ∈ entries := (hlists.mem_iff _).mpr ⟨hin, rfl⟩
  rw [RegionEntry.erase]
  cases hfind : entries.findIdx? fun entry =>
      decide (Region.identity entry.region = Region.identity region) with
  | some index => exact ⟨_, rfl⟩
  | none =>
    have hno := List.findIdx?_eq_none_iff.mp hfind _ hmem
    rw [decide_eq_false_iff_not] at hno
    exact absurd rfl hno

/-- Removing a region lists the set without it, if no other region of the set has its identity. -/
theorem Lists.erase {entries edited : List (RegionEntry ρ)} {regions : Set ρ} {region : ρ}
    (hlists : Lists entries regions)
    (hidentity : ∀ other ∈ regions, Region.identity other = Region.identity region → other = region)
    (h : RegionEntry.erase region entries = .ok edited) :
    Lists edited (regions \ {region}) := by
  obtain ⟨index, hindex, hsame, rfl⟩ := erase_eq_ok h
  obtain ⟨hin, heq⟩ := (hlists.mem_iff entries[index]).mp (List.getElem_mem hindex)
  have hregion : entries[index].region = region := hidentity _ hin hsame
  refine { apart := hlists.apart.sublist (List.eraseIdx_sublist ..)
           nonempty := fun e he => hlists.nonempty e ((List.eraseIdx_sublist ..).subset he)
           mem_iff := fun e => ?_ }
  have hrest : e ∈ entries.eraseIdx index ↔ e ∈ entries ∧ e ≠ entries[index] := by
    rw [List.mem_eraseIdx_iff_getElem?]
    constructor
    · rintro ⟨i, hne, hi⟩
      obtain ⟨hlt, rfl⟩ := List.getElem?_eq_some_iff.mp hi
      exact ⟨List.getElem_mem hlt, fun hsameEntry => hne (hlists.nodup.getElem_inj_iff.mp hsameEntry)⟩
    · rintro ⟨hmem, hne⟩
      obtain ⟨i, hlt, rfl⟩ := List.mem_iff_getElem.mp hmem
      exact ⟨i, fun hi => hne (by subst hi; rfl), List.getElem?_eq_getElem hlt⟩
  rw [hrest, hlists.mem_iff e, Set.mem_sdiff, Set.mem_singleton_iff]
  constructor
  · rintro ⟨⟨hmem, hentry⟩, hne⟩
    refine ⟨⟨hmem, fun hsameRegion => hne ?_⟩, hentry⟩
    rw [hentry, heq, hregion, hsameRegion]
  · rintro ⟨⟨hmem, hne⟩, hentry⟩
    exact ⟨⟨hmem, hentry⟩, fun hsameEntry => hne (by rw [hsameEntry, hregion])⟩

/-- No entries list no regions. -/
theorem lists_nil : Lists ([] : List (RegionEntry ρ)) ∅ where
  apart := List.Pairwise.nil
  nonempty := by simp
  mem_iff := by simp

/-- An erasure that is not violated takes out a region that is listed. -/
theorem Lists.mem_of_erase_eq_ok {entries edited : List (RegionEntry ρ)} {regions : Set ρ}
    {region : ρ} (hlists : Lists entries regions)
    (hidentity : ∀ other ∈ regions, Region.identity other = Region.identity region → other = region)
    (h : RegionEntry.erase region entries = .ok edited) : region ∈ regions := by
  obtain ⟨index, hindex, hsame, -⟩ := erase_eq_ok h
  obtain ⟨hin, -⟩ := (hlists.mem_iff entries[index]).mp (List.getElem_mem hindex)
  exact hidentity _ hin hsame ▸ hin

/-- The regions of a set are those of the entries that list it. -/
theorem Lists.eq_regions {entries : List (RegionEntry ρ)} {regions : Set ρ}
    (hlists : Lists entries regions) : regions = {region | region ∈ entries.map (·.region)} := by
  ext region
  rw [Set.mem_ofPred_eq, List.mem_map]
  constructor
  · exact fun hin => ⟨ofRegion region, (hlists.mem_iff _).mpr ⟨hin, rfl⟩, rfl⟩
  · rintro ⟨entry, hmem, rfl⟩
    exact ((hlists.mem_iff entry).mp hmem).1

/-- Only finitely many regions can be listed. -/
theorem Lists.finite {entries : List (RegionEntry ρ)} {regions : Set ρ}
    (hlists : Lists entries regions) : regions.Finite := by
  rw [hlists.eq_regions]
  exact List.finite_toSet _

/-- There are as many entries as regions. -/
theorem Lists.ncard {entries : List (RegionEntry ρ)} {regions : Set ρ}
    (hlists : Lists entries regions) : regions.ncard = entries.length := by
  classical
  have hnodup : (entries.map (·.region)).Nodup := by
    refine hlists.nodup.map_on fun a ha b hb hsame => ?_
    rw [((hlists.mem_iff a).mp ha).2, ((hlists.mem_iff b).mp hb).2, hsame]
  rw [hlists.eq_regions, ← List.coe_toFinset, Set.ncard_coe_finset, List.toFinset_card_of_nodup hnodup,
    List.length_map]

/-- A search answers with the region of the set that contains the address. -/
theorem Lists.find?_region {entries : List (RegionEntry ρ)} {regions : Set ρ}
    (hlists : Lists entries regions) (pc : Nat) (region : ρ) :
    (find? entries pc).map (·.region) = some region ↔ region ∈ regions ∧ Region.Holds region pc := by
  rw [Option.map_eq_some_iff]
  constructor
  · rintro ⟨entry, hfind, rfl⟩
    obtain ⟨hmem, hstart, hstop⟩ := (hlists.find?_eq_some_iff pc entry).mp hfind
    obtain ⟨hin, heq⟩ := (hlists.mem_iff entry).mp hmem
    rw [heq] at hstart hstop
    exact ⟨hin, hstart, hstop⟩
  · rintro ⟨hin, hstart, hstop⟩
    refine ⟨ofRegion region, (hlists.find?_eq_some_iff pc _).mpr ⟨?_, hstart, hstop⟩, rfl⟩
    exact (hlists.mem_iff _).mpr ⟨hin, rfl⟩

/-- A region of a set that is listed has addresses. -/
theorem Lists.start_lt_stop {entries : List (RegionEntry ρ)} {regions : Set ρ}
    (hlists : Lists entries regions) {region : ρ} (hin : region ∈ regions) :
    Region.start region < Region.stop region :=
  hlists.nonempty (ofRegion region) ((hlists.mem_iff _).mpr ⟨hin, rfl⟩)

/-- Two regions of a set that is listed share no address. -/
theorem Lists.regions_apart {entries : List (RegionEntry ρ)} {regions : Set ρ}
    (hlists : Lists entries regions) {region other : ρ} (hregion : region ∈ regions)
    (hother : other ∈ regions) (hne : region ≠ other) :
    Region.stop region ≤ Region.start other ∨ Region.stop other ≤ Region.start region := by
  by_contra hmeet
  have hsome := hlists.start_lt_stop hregion
  have hsome' := hlists.start_lt_stop hother
  -- A search for the first address that both have would have two answers.
  let pc := max (Region.start region) (Region.start other)
  have hfind := (hlists.find?_region pc region).mpr ⟨hregion, by omega, by omega⟩
  have hfind' := (hlists.find?_region pc other).mpr ⟨hother, by omega, by omega⟩
  exact hne (Option.some.inj (hfind.symm.trans hfind'))

end RegionEntry

end CompiledCode

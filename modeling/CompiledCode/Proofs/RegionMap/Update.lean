import CompiledCode.Proofs.Op
import CompiledCode.Proofs.RegionMap.Entries
import CompiledCode.RegionMap.Basic

/-!
# Edits of a map by its writer

An edit replaces the spare buffer and nothing else, and a violated one nothing at all. Two
edits with a swap between them leave both buffers equal if they were equal before, which is
what registration and removal do to a map while no other thread uses it.
-/

namespace CompiledCode.RegionMap

variable {ρ : Type}

@[simp] theorem front_setBuffer (map : RegionMap ρ) (side : Bool) (entries : List (RegionEntry ρ)) :
    (map.setBuffer side entries).front = map.front := by
  cases side <;> rfl

@[simp] theorem lookups_setBuffer (map : RegionMap ρ) (side : Bool) (entries : List (RegionEntry ρ)) :
    (map.setBuffer side entries).lookups = map.lookups := by
  cases side <;> rfl

/-- Replacing a buffer replaces that one only. -/
theorem buffer_setBuffer (map : RegionMap ρ) (side other : Bool) (entries : List (RegionEntry ρ)) :
    (map.setBuffer side entries).buffer other = if other = side then entries else map.buffer other := by
  cases side <;> cases other <;> rfl

/-- Writing the spare buffer is not published. -/
theorem published_setBuffer (map : RegionMap ρ) (entries : List (RegionEntry ρ)) :
    (map.setBuffer (!map.front) entries).published = map.published := by
  rw [published, front_setBuffer, buffer_setBuffer, if_neg (by simp), published]

/-- The spare buffer is what the writer writes. -/
theorem spare_setBuffer (map : RegionMap ρ) (entries : List (RegionEntry ρ)) :
    (map.setBuffer (!map.front) entries).spare = entries := by
  rw [spare, front_setBuffer, buffer_setBuffer, if_pos rfl]

/-- Writing the spare buffer as it is changes nothing. -/
theorem setBuffer_spare (map : RegionMap ρ) : map.setBuffer (!map.front) map.spare = map := by
  obtain ⟨left, right, front, lookups⟩ := map
  cases front <;> rfl

/-- When the buffers agree, either one holds what is published. -/
theorem buffer_eq_published {map : RegionMap ρ} (h : map.spare = map.published) (side : Bool) :
    map.buffer side = map.published := by
  by_cases hside : side = map.front
  · rw [hside, published]
  · rw [← h, spare, Bool.eq_not_of_ne hside]

/-- An edit is the change of the spare buffer. -/
theorem edit_apply (change : List (RegionEntry ρ) → Except Violation (List (RegionEntry ρ)))
    (map : RegionMap ρ) :
    edit change map =
      match change map.spare with
      | .ok entries => .ok () (map.setBuffer (!map.front) entries)
      | .error violation => .error (.violation violation) map := by
  change (do let entries ← Op.ofChecked (change map.spare); set (map.setBuffer (!map.front) entries) :
    Op (RegionMap ρ) Unit) map = _
  cases change map.spare <;> rfl

/-- An edit that is not violated leaves the changed entries in the spare buffer. -/
theorem edit_eq_ok {change : List (RegionEntry ρ) → Except Violation (List (RegionEntry ρ))}
    {map edited : RegionMap ρ} (h : edit change map = .ok () edited) :
    ∃ entries, change map.spare = .ok entries ∧ edited = map.setBuffer (!map.front) entries := by
  rw [edit_apply] at h
  split at h
  · rename_i entries hentries
    cases h
    exact ⟨entries, hentries, rfl⟩
  · contradiction

/-- A violated edit changes nothing. -/
theorem edit_eq_error {change : List (RegionEntry ρ) → Except Violation (List (RegionEntry ρ))}
    {map edited : RegionMap ρ} {fault : Fault} (h : edit change map = .error fault edited) :
    edited = map ∧ ∃ violation, fault = .violation violation ∧ change map.spare = .error violation := by
  rw [edit_apply] at h
  split at h
  · contradiction
  · rename_i violation hviolation
    cases h
    exact ⟨rfl, violation, rfl, hviolation⟩

@[simp] theorem front_swap (map : RegionMap ρ) : map.swap.front = !map.front := rfl

@[simp] theorem published_swap (map : RegionMap ρ) : map.swap.published = map.spare := rfl

@[simp] theorem spare_swap (map : RegionMap ρ) : map.swap.spare = map.published := by
  rw [spare, front_swap, Bool.not_not]
  rfl

/-- An update that is not violated is two edits with a swap between them. -/
theorem update_eq_ok {change : List (RegionEntry ρ) → Except Violation (List (RegionEntry ρ))}
    {map updated : RegionMap ρ} (h : update change map = .ok () updated) :
    ∃ edited, edit change map = .ok () edited ∧ edit change edited.swap = .ok () updated := by
  change EStateM.bind (edit change) (fun _ => EStateM.bind (modify swap) fun _ => edit change) map = _
    at h
  rw [EStateM.bind] at h
  split at h
  · rename_i edited hedit
    exact ⟨edited, hedit, h⟩
  · contradiction

/-- An update whose first edit is violated changes nothing. -/
theorem update_eq_error {change : List (RegionEntry ρ) → Except Violation (List (RegionEntry ρ))}
    {map : RegionMap ρ} {violation : Violation} (h : change map.spare = .error violation) :
    update change map = .error (.violation violation) map := by
  change EStateM.bind (edit change) (fun _ => EStateM.bind (modify swap) fun _ => edit change) map = _
  rw [EStateM.bind, edit_apply, h]

/-- An update of a map whose buffers agree leaves the changed entries in both. -/
theorem exists_update_eq_ok {change : List (RegionEntry ρ) → Except Violation (List (RegionEntry ρ))}
    {map : RegionMap ρ} {entries : List (RegionEntry ρ)} (hagree : map.spare = map.published)
    (h : change map.published = .ok entries) :
    ∃ updated, update change map = .ok () updated ∧ updated.spare = entries ∧
      updated.published = entries := by
  have hfirst : edit change map = .ok () (map.setBuffer (!map.front) entries) := by
    rw [edit_apply, hagree, h]
  let edited := (map.setBuffer (!map.front) entries).swap
  have hsecond : edit change edited = .ok () (edited.setBuffer (!edited.front) entries) := by
    rw [edit_apply, spare_swap, published_setBuffer, h]
  refine ⟨edited.setBuffer (!edited.front) entries, ?_, spare_setBuffer _ _, ?_⟩
  · change EStateM.bind (edit change) (fun _ => EStateM.bind (modify swap) fun _ => edit change) map = _
    rw [EStateM.bind, hfirst]
    exact hsecond
  · rw [published_setBuffer, published_swap, spare_setBuffer]

variable [Region ρ]

/-- While no edit is under way, both buffers list the regions of the map. -/
structure Settled (map : RegionMap ρ) (regions : Set ρ) : Prop where
  agree : map.spare = map.published
  lists : RegionEntry.Lists map.published regions

/-- A new map is settled and has no regions. -/
theorem settled_empty : Settled ({} : RegionMap ρ) ∅ where
  agree := rfl
  lists := RegionEntry.lists_nil

/-- A lookup in a settled map answers with the region that contains the address. -/
theorem Settled.lookup_eq_some_iff {map : RegionMap ρ} {regions : Set ρ}
    (hmap : map.Settled regions) (pc : Nat) (region : ρ) :
    map.lookup pc = some region ↔ region ∈ regions ∧ Region.Holds region pc :=
  hmap.lists.find?_region pc region

/-- A region apart from the others is registered if there is room, and never violates. -/
theorem Settled.insert {map : RegionMap ρ} {regions : Set ρ} {region : ρ}
    (hmap : map.Settled regions) (hsome : Region.start region < Region.stop region)
    (hapart : ∀ other ∈ regions,
      Region.stop region ≤ Region.start other ∨ Region.stop other ≤ Region.start region)
    (room : Bool) :
    (RegionMap.insert region room).Ensures map
      (fun _ after => after.Settled (Insert.insert region regions))
      (fun fault after => fault.isViolation = false ∧ after.Settled regions) := by
  obtain ⟨entries, hentries⟩ : ∃ entries,
      (RegionEntry.ofRegion region).insert map.published = .ok entries := by
    refine RegionEntry.exists_insert_eq_ok hmap.lists.toTidy fun other hother => ?_
    obtain ⟨hin, heq⟩ := (hmap.lists.mem_iff other).mp hother
    rw [heq]
    exact hapart _ hin
  rw [RegionMap.insert, Op.ensures_bind, Op.ensures_require, if_pos (decide_eq_true hsome)]
  cases room with
  | true =>
    obtain ⟨updated, hupdate, hspare, hpublished⟩ := exists_update_eq_ok hmap.agree hentries
    refine (Op.ensures_iff_of_ok hupdate).mpr ⟨hspare.trans hpublished.symm, ?_⟩
    rw [hpublished]
    exact hmap.lists.insert hsome hentries
  | false =>
    change (get >>= fun (now : RegionMap ρ) => Op.ofChecked
      ((RegionEntry.ofRegion region).insert now.spare) >>= fun _ => Op.fail _ : Op _ Unit).Ensures ..
    rw [Op.ensures_bind, Op.ensures_get, Op.ensures_bind, hmap.agree, hentries, Op.ensures_ofChecked]
    exact (Op.ensures_fail _).mpr ⟨rfl, hmap⟩

/-- A registered region is removed, and nothing can keep it from being so. -/
theorem Settled.remove {map : RegionMap ρ} {regions : Set ρ} {region : ρ}
    (hmap : map.Settled regions) (hin : region ∈ regions)
    (hidentity : ∀ other ∈ regions,
      Region.identity other = Region.identity region → other = region) :
    (RegionMap.remove region).Ensures map (fun _ after => after.Settled (regions \ {region}))
      (fun _ _ => False) := by
  obtain ⟨entries, hentries⟩ := hmap.lists.exists_erase_eq_ok hin
  obtain ⟨updated, hupdate, hspare, hpublished⟩ := exists_update_eq_ok hmap.agree hentries
  rw [RegionMap.remove, Op.ensures_bind, Op.ensures_iff_of_ok hupdate, Op.ensures_bind,
    Op.ensures_get, Op.ensures_pure]
  refine ⟨hspare.trans hpublished.symm, ?_⟩
  rw [hpublished]
  exact hmap.lists.erase hidentity hentries

end CompiledCode.RegionMap

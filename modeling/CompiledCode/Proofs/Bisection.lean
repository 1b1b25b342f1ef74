import CompiledCode.Bisection

/-!
# Halving a sorted table

On a table that is sorted for the question asked, halving finds the place where the
answers change. That place splits the table into the entries for which the answer is
yes and those for which it is no, so that everything said about a search or an insertion
can be said about the two parts.

The lookup of a key needs strictly increasing keys only to be complete: whatever it
reports as found has the key in any table.
-/

namespace CompiledCode

variable {α : Type}

/-- The candidate that is left asked to move on, unless it is the first one of the window. -/
theorem narrow_moveOn (moveOn : Nat → Bool) (rounds base size : Nat) :
    narrow moveOn rounds base size = base ∨ moveOn (narrow moveOn rounds base size) = true := by
  induction rounds generalizing base size with
  | zero => exact Or.inl rfl
  | succ rounds ih =>
    rw [narrow]
    split
    · exact Or.inl rfl
    · by_cases hmid : moveOn (base + size / 2) = true
      · simp only [hmid, if_true]
        rcases ih (base + size / 2) (size - size / 2) with heq | hon
        · exact Or.inr (by rw [heq]; exact hmid)
        · exact Or.inr hon
      · simp only [hmid]
        exact ih base (size - size / 2)

/-- With enough rounds no candidate after the one that is left asks to move on. -/
theorem narrow_stays (moveOn : Nat → Bool) (rounds base size : Nat) (hrounds : size ≤ rounds + 1)
    (hmono : ∀ i j, i ≤ j → j < base + size → moveOn j = true → moveOn i = true)
    (i : Nat) (hafter : narrow moveOn rounds base size < i) (hi : i < base + size) :
    moveOn i = false := by
  induction rounds generalizing base size with
  | zero => simp only [narrow] at hafter; omega
  | succ rounds ih =>
    rw [narrow] at hafter
    split at hafter
    · omega
    · by_cases hmid : moveOn (base + size / 2) = true
      · simp only [hmid, if_true] at hafter
        exact ih (base + size / 2) (size - size / 2) (by omega)
          (fun i j hij hj => hmono i j hij (by omega)) hafter (by omega)
      · simp only [hmid] at hafter
        by_cases hfar : i < base + (size - size / 2)
        · exact ih base (size - size / 2) (by omega)
            (fun i j hij hj => hmono i j hij (by omega)) hafter hfar
        · exact Bool.eq_false_iff.mpr fun hon =>
            hmid (hmono (base + size / 2) i (by omega) hi hon)

/-- In a table whose yes-entries come first, a yes at one index is a yes at every earlier one. -/
theorem any_getElem?_mono {holds : α → Bool} {entries : List α}
    (hsorted : entries.Pairwise fun a b => holds b = true → holds a = true) (i j : Nat)
    (hij : i ≤ j) (hj : entries[j]?.any holds = true) : entries[i]?.any holds = true := by
  obtain ⟨b, hb, hyes⟩ := (Option.any_eq_true ..).mp hj
  obtain ⟨hjlt, rfl⟩ := List.getElem?_eq_some_iff.mp hb
  rcases Nat.lt_or_eq_of_le hij with hlt | rfl
  · rw [List.getElem?_eq_getElem (by omega)]
    exact List.pairwise_iff_getElem.mp hsorted i j (by omega) hjlt hlt hyes
  · exact hj

/-- A number is that of the leading yes-entries if the answer changes there. -/
theorem eq_length_takeWhile {holds : α → Bool} {entries : List α} {count : Nat}
    (hbefore : ∀ i, i < count → entries[i]?.any holds = true)
    (hthere : entries[count]?.any holds = false) :
    count = (entries.takeWhile holds).length := by
  induction entries generalizing count with
  | nil =>
    cases count with
    | zero => rfl
    | succ count => simpa using hbefore 0 (by omega)
  | cons a rest ih =>
    by_cases ha : holds a = true
    · cases count with
      | zero => simp [ha] at hthere
      | succ count =>
        rw [List.takeWhile_cons_of_pos ha, List.length_cons]
        have hrest : count = (rest.takeWhile holds).length :=
          ih (fun i hi => by simpa using hbefore (i + 1) (by omega)) (by simpa using hthere)
        rw [← hrest]
    · cases count with
      | zero => simp [ha]
      | succ count => exact absurd (by simpa using hbefore 0 (by omega)) ha

/-- Halving counts the leading entries for which the answer is yes. -/
theorem partitionPoint_eq_length_takeWhile {holds : α → Bool} {entries : List α}
    (hsorted : entries.Pairwise fun a b => holds b = true → holds a = true) :
    partitionPoint holds entries = (entries.takeWhile holds).length := by
  let asks (i : Nat) : Bool := entries[i]?.any holds
  let left := narrow asks entries.length 0 entries.length
  have hmono : ∀ i j, i ≤ j → asks j = true → asks i = true := any_getElem?_mono hsorted
  have hbeyond : ∀ i, entries.length ≤ i → asks i = false := fun i hi => by
    simp [asks, List.getElem?_eq_none hi]
  have hafter : ∀ i, left < i → asks i = false := fun i hi => by
    rcases Nat.lt_or_ge i entries.length with hlt | hge
    · exact narrow_stays asks entries.length 0 entries.length (by omega)
        (fun i j hij _ => hmono i j hij) i hi (by omega)
    · exact hbeyond i hge
  apply eq_length_takeWhile
  · intro i hi
    change i < if asks left then left + 1 else left at hi
    rcases narrow_moveOn asks entries.length 0 entries.length with hzero | hon
    · change left = 0 at hzero
      split at hi
      · rename_i hyes
        exact hmono i left (by omega) hyes
      · omega
    · change asks left = true at hon
      rw [if_pos hon] at hi
      exact hmono i left (by omega) hon
  · change asks (if asks left then left + 1 else left) = false
    split
    · exact hafter (left + 1) (by omega)
    · rename_i hno
      exact Bool.eq_false_iff.mpr hno

/-- The entry at the place where the answers change is the first one with a no. -/
theorem getElem?_partitionPoint {holds : α → Bool} {entries : List α}
    (hsorted : entries.Pairwise fun a b => holds b = true → holds a = true) :
    entries[partitionPoint holds entries]? = (entries.dropWhile holds).head? := by
  have hnext (before after : List α) : (before ++ after)[before.length]? = after.head? := by
    rw [List.getElem?_append_right (Nat.le_refl _), Nat.sub_self, List.head?_eq_getElem?]
  calc entries[partitionPoint holds entries]?
      = (entries.takeWhile holds ++ entries.dropWhile holds)[(entries.takeWhile holds).length]? := by
        rw [List.takeWhile_append_dropWhile, partitionPoint_eq_length_takeWhile hsorted]
    _ = (entries.dropWhile holds).head? := hnext _ _

/-- Inserting where the answers change puts an entry between the two parts of the table. -/
theorem insertIdx_partitionPoint {holds : α → Bool} {entries : List α}
    (hsorted : entries.Pairwise fun a b => holds b = true → holds a = true) (entry : α) :
    entries.insertIdx (partitionPoint holds entries) entry =
      entries.takeWhile holds ++ entry :: entries.dropWhile holds := by
  have hput (before after : List α) :
      (before ++ after).insertIdx before.length entry = before ++ entry :: after := by
    induction before with
    | nil => rfl
    | cons a before ih => simpa using ih
  calc entries.insertIdx (partitionPoint holds entries) entry
      = (entries.takeWhile holds ++ entries.dropWhile holds).insertIdx
          (entries.takeWhile holds).length entry := by
        rw [List.takeWhile_append_dropWhile, partitionPoint_eq_length_takeWhile hsorted]
    _ = entries.takeWhile holds ++ entry :: entries.dropWhile holds := hput _ _

/-- After the place where the answers change every answer is no. -/
theorem eq_false_of_mem_dropWhile {holds : α → Bool} {entries : List α}
    (hsorted : entries.Pairwise fun a b => holds b = true → holds a = true) {entry : α}
    (hmem : entry ∈ entries.dropWhile holds) : holds entry = false := by
  induction entries with
  | nil => simp at hmem
  | cons a rest ih =>
    rw [List.pairwise_cons] at hsorted
    by_cases ha : holds a = true
    · rw [List.dropWhile_cons_of_pos ha] at hmem
      exact ih hsorted.2 hmem
    · rw [List.dropWhile_cons_of_neg ha] at hmem
      rcases List.mem_cons.mp hmem with rfl | hrest
      · exact Bool.eq_false_iff.mpr ha
      · exact Bool.eq_false_iff.mpr fun hyes => ha (hsorted.1 entry hrest hyes)

/-- Looking a key up inspects the last entry whose key is at most that key. -/
theorem searchKey_eq (keyOf : α → Nat) (entries : List α) (key : Nat) :
    searchKey keyOf entries key =
      match partitionPoint (keyOf · ≤ key) entries with
      | 0 => .vacant 0
      | last + 1 =>
        if entries[last]?.any (keyOf · = key) then .found last else .vacant (last + 1) := by
  rw [searchKey, partitionPoint]
  dsimp only
  have hfirst :=
    narrow_moveOn (fun i => entries[i]?.any (keyOf · ≤ key)) entries.length 0 entries.length
  generalize narrow (fun i => entries[i]?.any (keyOf · ≤ key)) entries.length 0 entries.length = left
    at hfirst ⊢
  obtain hleft | ⟨entry, hleft⟩ := Option.eq_none_or_eq_some entries[left]?
  · simp only [hleft, Option.any_none, Bool.false_eq_true, or_false] at hfirst
    subst hfirst
    simp [hleft]
  · simp only [hleft, Option.any_some, decide_eq_true_eq] at hfirst
    rcases Nat.lt_trichotomy (keyOf entry) key with hlt | heq | hgt
    · simp [hleft, hlt, Nat.le_of_lt hlt, Nat.ne_of_lt hlt]
    · simp [hleft, heq]
    · obtain rfl : left = 0 := hfirst.resolve_right (Nat.not_le_of_gt hgt)
      simp [hleft, Nat.ne_of_gt hgt, Nat.not_lt_of_gt hgt, Nat.not_le_of_gt hgt]

/-- A table sorted by strictly increasing keys. -/
def KeySorted (keyOf : α → Nat) (entries : List α) : Prop :=
  entries.Pairwise fun a b => keyOf a < keyOf b

/-- What is found under a key has that key, in any table. -/
theorem searchKey_found {keyOf : α → Nat} {entries : List α} {key index : Nat}
    (h : searchKey keyOf entries key = .found index) :
    ∃ entry, entries[index]? = some entry ∧ keyOf entry = key := by
  rw [searchKey_eq] at h
  split at h
  · contradiction
  · split at h
    · rename_i hkey
      cases h
      obtain ⟨entry, hentry, heq⟩ := (Option.any_eq_true ..).mp hkey
      exact ⟨entry, hentry, by simpa using heq⟩
    · contradiction

/-- In a sorted table the entries with at most a given key come first. -/
theorem KeySorted.pairwise_le {keyOf : α → Nat} {entries : List α} (hsorted : KeySorted keyOf entries)
    (key : Nat) :
    entries.Pairwise fun a b => decide (keyOf b ≤ key) = true → decide (keyOf a ≤ key) = true :=
  hsorted.imp fun hab hb => by
    rw [decide_eq_true_eq] at hb ⊢
    omega

/-- A key that is reported missing divides a sorted table into lesser and greater keys. -/
theorem searchKey_vacant {keyOf : α → Nat} {entries : List α} {key place : Nat}
    (hsorted : KeySorted keyOf entries) (h : searchKey keyOf entries key = .vacant place) :
    place = partitionPoint (keyOf · ≤ key) entries ∧
      (∀ entry ∈ entries.takeWhile (keyOf · ≤ key), keyOf entry < key) ∧
      ∀ entry ∈ entries.dropWhile (keyOf · ≤ key), key < keyOf entry := by
  have hle := hsorted.pairwise_le key
  have hcount := partitionPoint_eq_length_takeWhile hle
  have hsplit := List.takeWhile_append_dropWhile (p := fun a => decide (keyOf a ≤ key)) (l := entries)
  have hgreater : ∀ entry ∈ entries.dropWhile (keyOf · ≤ key), key < keyOf entry := by
    intro entry hmem
    have hno := eq_false_of_mem_dropWhile hle hmem
    rw [decide_eq_false_iff_not] at hno
    omega
  rw [searchKey_eq] at h
  split at h
  · rename_i hzero
    cases h
    rw [hzero] at hcount ⊢
    refine ⟨rfl, ?_, hgreater⟩
    rw [List.length_eq_zero_iff.mp hcount.symm]
    simp
  · rename_i last hlast
    split at h
    · contradiction
    · rename_i hother
      cases h
      let lower := entries.takeWhile fun a => decide (keyOf a ≤ key)
      have hlen : last < lower.length := by
        change last < (entries.takeWhile fun a => decide (keyOf a ≤ key)).length
        omega
      have hfinal : entries[last]? = some lower[last] := by
        calc entries[last]? = (lower ++ entries.dropWhile fun a => decide (keyOf a ≤ key))[last]? := by
              rw [hsplit]
          _ = some lower[last] := by
              rw [List.getElem?_append_left hlen, List.getElem?_eq_getElem hlen]
      have hmost : keyOf lower[last] ≤ key := by
        simpa using List.all_eq_true.mp List.all_takeWhile lower[last] (List.getElem_mem hlen)
      have hless : keyOf lower[last] ≠ key := by simpa [hfinal] using hother
      refine ⟨hlast.symm, ?_, hgreater⟩
      intro entry hmem
      obtain ⟨i, hi, rfl⟩ := List.mem_iff_getElem.mp hmem
      change keyOf lower[i] < key
      rcases Nat.lt_or_eq_of_le (show i ≤ last by omega) with hlt | rfl
      · have hstep := List.pairwise_iff_getElem.mp
          (hsorted.sublist (List.takeWhile_sublist fun a => decide (keyOf a ≤ key))) i last hi hlen hlt
        change keyOf lower[i] < keyOf lower[last] at hstep
        omega
      · omega

/-- A key that is reported missing belongs to no entry of a sorted table. -/
theorem ne_of_searchKey_vacant {keyOf : α → Nat} {entries : List α} {key place : Nat}
    (hsorted : KeySorted keyOf entries) (h : searchKey keyOf entries key = .vacant place)
    {entry : α} (hmem : entry ∈ entries) : keyOf entry ≠ key := by
  obtain ⟨-, hlower, hupper⟩ := searchKey_vacant hsorted h
  rw [← List.takeWhile_append_dropWhile (p := fun a => decide (keyOf a ≤ key)) (l := entries)] at hmem
  rcases List.mem_append.mp hmem with hin | hin
  · exact Nat.ne_of_lt (hlower entry hin)
  · exact Nat.ne_of_gt (hupper entry hin)

/-- The place reported for a missing key is one of the table, or right after it. -/
theorem place_le_of_searchKey_vacant {keyOf : α → Nat} {entries : List α} {key place : Nat}
    (hsorted : KeySorted keyOf entries) (h : searchKey keyOf entries key = .vacant place) :
    place ≤ entries.length := by
  obtain ⟨rfl, -, -⟩ := searchKey_vacant hsorted h
  rw [partitionPoint_eq_length_takeWhile (hsorted.pairwise_le key)]
  exact (List.takeWhile_sublist _).length_le

/-- Inserting a missing key at the place reported for it keeps a table sorted. -/
theorem KeySorted.insertIdx {keyOf : α → Nat} {entries : List α} {place : Nat} {entry : α}
    (hsorted : KeySorted keyOf entries) (h : searchKey keyOf entries (keyOf entry) = .vacant place) :
    KeySorted keyOf (entries.insertIdx place entry) := by
  obtain ⟨rfl, hlower, hupper⟩ := searchKey_vacant hsorted h
  rw [insertIdx_partitionPoint (hsorted.pairwise_le _)]
  refine List.pairwise_append.mpr ⟨hsorted.sublist (List.takeWhile_sublist _), ?_, ?_⟩
  · exact List.pairwise_cons.mpr ⟨hupper, hsorted.sublist (List.dropWhile_sublist _)⟩
  · intro a ha b hb
    rcases List.mem_cons.mp hb with rfl | hb
    · exact hlower a ha
    · exact Nat.lt_trans (hlower a ha) (hupper b hb)

/-- Entries of a sorted table with one key are one entry, at one index. -/
theorem KeySorted.index_inj {keyOf : α → Nat} {entries : List α} (hsorted : KeySorted keyOf entries)
    {i j : Nat} {a b : α} (ha : entries[i]? = some a) (hb : entries[j]? = some b)
    (hkey : keyOf a = keyOf b) : i = j := by
  obtain ⟨hi, rfl⟩ := List.getElem?_eq_some_iff.mp ha
  obtain ⟨hj, rfl⟩ := List.getElem?_eq_some_iff.mp hb
  rcases Nat.lt_trichotomy i j with hlt | heq | hgt
  · have := List.pairwise_iff_getElem.mp hsorted i j hi hj hlt
    omega
  · exact heq
  · have := List.pairwise_iff_getElem.mp hsorted j i hj hi hgt
    omega

/-- Entries of a sorted table with one key are one entry. -/
theorem KeySorted.eq_of_mem {keyOf : α → Nat} {entries : List α} (hsorted : KeySorted keyOf entries)
    {a b : α} (ha : a ∈ entries) (hb : b ∈ entries) (hkey : keyOf a = keyOf b) : a = b := by
  obtain ⟨i, hi⟩ := List.mem_iff_getElem?.mp ha
  obtain ⟨j, hj⟩ := List.mem_iff_getElem?.mp hb
  obtain rfl := hsorted.index_inj hi hj hkey
  exact Option.some.inj (hi.symm.trans hj)

/-- An entry that is found under a key is in the table, be it sorted or not. -/
theorem mem_of_findKey? {keyOf : α → Nat} {entries : List α} {key index : Nat} {entry : α}
    (h : findKey? keyOf entries key = some (index, entry)) : entry ∈ entries := by
  rw [findKey?] at h
  split at h
  · obtain ⟨found, hfound, heq⟩ := Option.map_eq_some_iff.mp h
    cases heq
    exact List.mem_of_getElem? hfound
  · contradiction

/-- An entry that is found under a key has the key, be the table sorted or not. -/
theorem key_of_findKey? {keyOf : α → Nat} {entries : List α} {key index : Nat} {entry : α}
    (h : findKey? keyOf entries key = some (index, entry)) : keyOf entry = key := by
  rw [findKey?] at h
  split at h
  · rename_i found hfound
    obtain ⟨other, hother, hkey⟩ := searchKey_found hfound
    rw [hother] at h
    cases h
    exact hkey
  · contradiction

/-- There is a place for a key that is looked up in vain, be the table sorted or not. -/
theorem vacant_of_findKey? {keyOf : α → Nat} {entries : List α} {key : Nat}
    (h : findKey? keyOf entries key = none) :
    ∃ place, searchKey keyOf entries key = .vacant place := by
  rw [findKey?] at h
  cases hfind : searchKey keyOf entries key with
  | found index =>
    obtain ⟨entry, hentry, -⟩ := searchKey_found hfind
    rw [hfind] at h
    dsimp only at h
    rw [hentry] at h
    contradiction
  | vacant place => exact ⟨place, rfl⟩

/-- A key is looked up in a sorted table to the one entry that has it. -/
theorem findKey?_eq_some_iff {keyOf : α → Nat} {entries : List α} {key index : Nat} {entry : α}
    (hsorted : KeySorted keyOf entries) :
    findKey? keyOf entries key = some (index, entry) ↔
      entries[index]? = some entry ∧ keyOf entry = key := by
  rw [findKey?]
  cases hfind : searchKey keyOf entries key with
  | found found =>
    obtain ⟨other, hother, hkey⟩ := searchKey_found hfind
    simp only [hother, Option.map_some, Option.some.injEq, Prod.mk.injEq]
    constructor
    · rintro ⟨rfl, rfl⟩
      exact ⟨hother, hkey⟩
    · rintro ⟨hentry, hsame⟩
      obtain rfl := hsorted.index_inj hother hentry (hkey.trans hsame.symm)
      rw [hother] at hentry
      exact ⟨rfl, Option.some.inj hentry⟩
  | vacant place =>
    simp only [reduceCtorEq, false_iff, not_and]
    exact fun hentry => ne_of_searchKey_vacant hsorted hfind (List.mem_of_getElem? hentry)

/-- A key is looked up in vain in a sorted table exactly if no entry has it. -/
theorem findKey?_eq_none_iff {keyOf : α → Nat} {entries : List α} {key : Nat}
    (hsorted : KeySorted keyOf entries) :
    findKey? keyOf entries key = none ↔ ∀ entry ∈ entries, keyOf entry ≠ key := by
  constructor
  · intro hnone entry hmem hkey
    obtain ⟨index, hindex⟩ := List.mem_iff_getElem?.mp hmem
    rw [(findKey?_eq_some_iff hsorted).mpr ⟨hindex, hkey⟩] at hnone
    contradiction
  · intro hall
    refine Option.eq_none_iff_forall_ne_some.mpr fun ⟨index, entry⟩ hfound => ?_
    obtain ⟨hindex, hkey⟩ := (findKey?_eq_some_iff hsorted).mp hfound
    exact hall entry (List.mem_of_getElem? hindex) hkey

section changed

variable {β : Type}

/-- In a table with changed entries the answers change where they do for the entries as they were. -/
theorem partitionPoint_map (holds : β → Bool) (f : α → β) (entries : List α) :
    partitionPoint holds (entries.map f) = partitionPoint (fun entry => holds (f entry)) entries := by
  simp only [partitionPoint, List.length_map, List.getElem?_map, Option.any_map]

/-- If the answer is no for every entry then it changes before the first one. -/
theorem partitionPoint_eq_zero {holds : α → Bool} {entries : List α}
    (hno : ∀ entry ∈ entries, holds entry = false) : partitionPoint holds entries = 0 := by
  have hmono : entries.Pairwise fun a b => holds b = true → holds a = true :=
    List.pairwise_of_forall_mem_list fun a _ b hb hyes => by
      rw [hno b hb] at hyes
      contradiction
  rw [partitionPoint_eq_length_takeWhile hmono]
  cases entries with
  | nil => rfl
  | cons first rest =>
    have hfirst := Bool.eq_false_iff.mp (hno first List.mem_cons_self)
    rw [List.takeWhile_cons_of_neg hfirst, List.length_nil]

variable {keyOf : α → Nat} {keyOf' : β → Nat} {f : α → β} {distance : Nat}

/-- A key is where it was in a table whose keys have all grown by the same number. -/
theorem searchKey_map_add (hkey : ∀ entry, keyOf' (f entry) = keyOf entry + distance)
    (entries : List α) (key : Nat) :
    searchKey keyOf' (entries.map f) (key + distance) = searchKey keyOf entries key := by
  simp only [searchKey_eq, partitionPoint_map, List.getElem?_map, Option.any_map, hkey,
    Nat.add_le_add_iff_right, Nat.add_right_cancel_iff]

/-- The entry with a key is the changed one in a table whose keys have all grown by the same number. -/
theorem findKey?_map_add (hkey : ∀ entry, keyOf' (f entry) = keyOf entry + distance)
    (entries : List α) (key : Nat) :
    findKey? keyOf' (entries.map f) (key + distance) =
      (findKey? keyOf entries key).map fun found => (found.1, f found.2) := by
  rw [findKey?, findKey?, searchKey_map_add hkey]
  cases searchKey keyOf entries key with
  | found index =>
    dsimp only
    rw [List.getElem?_map, Option.map_map, Option.map_map]
    rfl
  | vacant place => rfl

/-- No entry has a key that is less than what all keys have grown by. -/
theorem findKey?_map_eq_none (hkey : ∀ entry, keyOf' (f entry) = keyOf entry + distance)
    (entries : List α) {key : Nat} (hless : key < distance) :
    findKey? keyOf' (entries.map f) key = none := by
  refine Option.eq_none_iff_forall_ne_some.mpr fun ⟨index, entry⟩ hfound => ?_
  obtain ⟨before, -, rfl⟩ := List.mem_map.mp (mem_of_findKey? hfound)
  have hthere := key_of_findKey? hfound
  rw [hkey] at hthere
  omega

end changed

end CompiledCode

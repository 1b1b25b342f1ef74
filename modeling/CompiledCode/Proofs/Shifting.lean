import CompiledCode.Proofs.Scans

/-!
# Tables of code that is moved

Tables count offsets from the start of a segment, while the code that they describe is compiled
before its place there is known. When it is put in place all offsets grow by the same distance. Every
search goes along with that, whatever its rule and whether or not the tables are in order: at an
offset that has been moved it answers the entry from before, with all offsets in it moved, and below
the distance it answers nothing.
-/

namespace CompiledCode

/-- The same call site, `distance` further on. -/
def CallSite.shift (site : CallSite) (distance : Nat) : CallSite :=
  { site with returnOffset := site.returnOffset + distance }

/-- The same trap site, `distance` further on. -/
def TrapSite.shift (site : TrapSite) (distance : Nat) : TrapSite :=
  { site with offset := site.offset + distance }

/-- The same stack map, `distance` further on; the slots are places in the frame and stay. -/
def StackMap.shift (map : StackMap) (distance : Nat) : StackMap :=
  { map with offset := map.offset + distance }

/-- The same try note, `distance` further on together with its handler. -/
def TryNote.shift (note : TryNote) (distance : Nat) : TryNote :=
  { note with
    start := note.start + distance
    stop := note.stop + distance
    landingPad := note.landingPad + distance }

/-- The same unwind information, `distance` further on. -/
def UnwindInfo.shift (info : UnwindInfo) (distance : Nat) : UnwindInfo :=
  { info with offset := info.offset + distance }

namespace CodeTables

/-- The same facts about code that lies `distance` further on. -/
def Facts.shift (facts : Facts) (distance : Nat) : Facts where
  range := facts.range.map fun range =>
    { range with
      start := range.start + distance
      stop := range.stop + distance
      tierEntry := range.tierEntry + distance }
  callSite := facts.callSite.map (·.shift distance)
  stackMap := facts.stackMap.map (·.shift distance)
  trapSite := facts.trapSite.map (·.shift distance)
  tryNote := facts.tryNote.map (·.shift distance)
  unwindInfo := facts.unwindInfo.map (·.shift distance)

section searches

variable (tables : CodeTables) (distance : Nat)

/-- The range that contains an offset is moved along with it. -/
theorem range?_shift (offset : Nat) :
    (tables.shift distance).range? (offset + distance) =
      (tables.range? offset).map (·.shift distance) := by
  have hcontains (range : CodeRange) :
      (range.shift distance).contains (offset + distance) = range.contains offset := by
    simp only [CodeRange.contains, CodeRange.shift, Nat.add_le_add_iff_right, Nat.add_lt_add_iff_right]
  have hstop (range : CodeRange) :
      decide ((range.shift distance).stop ≤ offset + distance) = decide (range.stop ≤ offset) := by
    simp only [CodeRange.shift, Nat.add_le_add_iff_right]
  simp only [range?, locateRange?, shift, partitionPoint_map, hstop, List.getElem?_map]
  cases tables.ranges[partitionPoint (fun range => range.stop ≤ offset) tables.ranges]? with
  | none => rfl
  | some range =>
    simp only [Option.map_some, hcontains]
    split <;> rfl

/-- The try note that covers an offset is moved along with it. -/
theorem tryNote?_shift (offset : Nat) :
    (tables.shift distance).tryNote? (offset + distance) =
      (tables.tryNote? offset).map (·.shift distance) := by
  have hcovers : (TryNote.covers · (offset + distance)) ∘ (TryNote.shift · distance) =
      (TryNote.covers · offset) := by
    funext note
    simp only [Function.comp_apply, TryNote.covers, TryNote.shift, Nat.add_le_add_iff_right,
      Nat.add_lt_add_iff_right]
  change (tables.tryNotes.map (·.shift distance)).find? _ = _
  rw [List.find?_map, hcovers, tryNote?]

/-- The entry that holds at an offset is moved along with it. -/
theorem unwindAt?_shift (offset : Nat) :
    (tables.shift distance).unwindAt? (offset + distance) =
      (tables.unwindAt? offset).map (·.shift distance) := by
  have hsearch : searchKey (·.offset) (tables.shift distance).unwindInfos (offset + distance) =
      searchKey (·.offset) tables.unwindInfos offset :=
    searchKey_map_add (f := fun info : UnwindInfo => info.shift distance) (fun _ => rfl) _ _
  have hat (index : Nat) : (tables.shift distance).unwindInfos[index]? =
      tables.unwindInfos[index]?.map (·.shift distance) := List.getElem?_map ..
  rw [unwindAt?, unwindAt?, hsearch]
  simp only [hat]
  split <;> rfl

/-- What is known of an offset is known of the place that it is moved to. -/
theorem factsAt_shift (offset : Nat) :
    (tables.shift distance).factsAt (offset + distance) = (tables.factsAt offset).shift distance := by
  have hone {α : Type} {keyOf : α → Nat} {f : α → α} (hkey : ∀ a, keyOf (f a) = keyOf a + distance)
      (entries : List α) : (findKey? keyOf (entries.map f) (offset + distance)).map (·.2) =
        ((findKey? keyOf entries offset).map (·.2)).map f := by
    rw [findKey?_map_add hkey, Option.map_map, Option.map_map]
    rfl
  have hunwindInfo : (tables.shift distance).unwindInfo? (offset + distance) =
      (tables.unwindInfo? offset).map (·.shift distance) := by
    rw [unwindInfo?, unwindInfo?, unwindAt?_shift, Option.filter_map]
    rfl
  rw [factsAt, factsAt, Facts.shift, range?_shift, tryNote?_shift, hunwindInfo]
  congr 1
  · exact hone (fun _ => rfl) tables.callSites
  · exact hone (fun _ => rfl) tables.stackMaps
  · exact hone (fun _ => rfl) tables.trapSites

/-- Nothing is known of an offset below the distance that all of the code was moved by. -/
theorem factsAt_shift_of_lt {offset : Nat} (hbelow : offset < distance) :
    (tables.shift distance).factsAt offset = {} := by
  have hrange : (tables.shift distance).range? offset = none := by
    rw [range?, locateRange?]
    split
    · rename_i range hrange
      obtain ⟨before, -, rfl⟩ := List.mem_map.mp (List.mem_of_getElem? hrange)
      have hstart : ¬ before.start + distance ≤ offset := by omega
      simp only [CodeRange.contains, CodeRange.shift, hstart, decide_false, Bool.false_and,
        Bool.false_eq_true, if_false, Option.map_none]
    · rfl
  have hone {α : Type} {keyOf : α → Nat} {f : α → α} (hkey : ∀ a, keyOf (f a) = keyOf a + distance)
      (entries : List α) : (findKey? keyOf (entries.map f) offset).map (·.2) = none := by
    rw [findKey?_map_eq_none hkey entries hbelow, Option.map_none]
  have htryNote : (tables.shift distance).tryNote? offset = none := by
    refine List.find?_eq_none.mpr fun note hnote hcovers => ?_
    obtain ⟨before, -, rfl⟩ := List.mem_map.mp hnote
    rw [TryNote.covers, Bool.and_eq_true, decide_eq_true_eq] at hcovers
    have hstart : before.start + distance < offset := hcovers.1
    omega
  have hunwindAt : (tables.shift distance).unwindAt? offset = none := by
    have hzero : partitionPoint (·.offset ≤ offset) (tables.shift distance).unwindInfos = 0 :=
      partitionPoint_eq_zero fun info hinfo => by
        obtain ⟨before, -, rfl⟩ := List.mem_map.mp hinfo
        rw [decide_eq_false_iff_not]
        dsimp only
        omega
    rw [unwindAt?, searchKey_eq, hzero]
  rw [factsAt, hrange, htryNote, unwindInfo?, hunwindAt]
  congr 1
  · exact hone (fun _ => rfl) tables.callSites
  · exact hone (fun _ => rfl) tables.stackMaps
  · exact hone (fun _ => rfl) tables.trapSites

/-- Moving code twice is the same as moving it by both distances at once. -/
theorem shift_shift (further : Nat) :
    (tables.shift distance).shift further = tables.shift (distance + further) := by
  simp only [shift, List.map_map, Function.comp_def, CodeRange.shift, Nat.add_assoc]

end searches

end CodeTables

end CompiledCode

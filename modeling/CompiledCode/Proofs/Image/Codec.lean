import CompiledCode.Image.Basic

/-!
# What is written is read back

A codec is lawful if it reads back whatever its format can hold, and leaves the input that follows
alone; of anything else it writes something that cannot be read. Codecs that are put together from
lawful ones are lawful, and so is the codec of images.
-/

namespace CompiledCode

namespace NumberFormat

/-- A byte is the number that it is made of. -/
theorem toNat_group {n : Nat} (h : n < 256) : (UInt8.ofNat n).toNat = n :=
  UInt8.toNat_ofNat_of_lt' h

/-- A number of some width is read back, unless its last group is too large. -/
theorem readWithin_writeWithin {top : Nat} (htop : top < 128) (width n : Nat) (rest : Bytes) :
    readWithin top (width + 1) (writeWithin (width + 1) n ++ rest) =
      if n < (top + 1) <<< (7 * width) then .ok (n, rest) else .error .endlessNumber := by
  induction width generalizing n with
  | zero =>
    by_cases hsmall : n < 128
    · have hbyte : (UInt8.ofNat n).toNat = n := toNat_group (by omega)
      simp only [writeWithin, if_pos hsmall, List.singleton_append, readWithin, hbyte]
      by_cases hfits : top < n
      · rw [if_pos ⟨trivial, hfits⟩, if_neg (by omega)]
      · rw [if_neg fun h => hfits h.2, if_pos (by omega)]
    · have hbyte : (UInt8.ofNat (n % 128 + 128)).toNat = n % 128 + 128 :=
        toNat_group (by omega)
      simp only [writeWithin, if_neg hsmall, List.cons_append, readWithin, hbyte]
      rw [if_neg (by omega), if_neg (by omega)]
  | succ width ih =>
    rw [writeWithin]
    have hgroup : (top + 1) <<< (7 * (width + 1)) = (top + 1) <<< (7 * width) * 128 := by
      rw [Nat.mul_succ, Nat.shiftLeft_add, Nat.shiftLeft_eq _ 7]
    by_cases hsmall : n < 128
    · have hbyte : (UInt8.ofNat n).toNat = n := toNat_group (by omega)
      have hlimit : n < (top + 1) <<< (7 * (width + 1)) := by
        have hle := Nat.le_shiftLeft (a := top + 1) (b := 7 * width)
        omega
      rw [if_pos hsmall, List.singleton_append, readWithin, hbyte, if_pos hsmall, if_pos hlimit,
        if_neg (by omega)]
    · have hbyte : (UInt8.ofNat (n % 128 + 128)).toNat = n % 128 + 128 :=
        toNat_group (by omega)
      have hlimit : n / 128 < (top + 1) <<< (7 * width) ↔ n < (top + 1) <<< (7 * (width + 1)) := by
        rw [Nat.div_lt_iff_lt_mul (by decide), hgroup]
      rw [if_neg hsmall, List.cons_append, readWithin, hbyte, if_neg (by omega), ih]
      by_cases hfits : n / 128 < (top + 1) <<< (7 * width)
      · rw [if_pos hfits, if_pos (hlimit.mp hfits)]
        dsimp only
        congr 2
        omega
      · rw [if_neg hfits, if_neg fun h => hfits (hlimit.mpr h)]

end NumberFormat

namespace Codec

variable {α β : Type}

/-- Whether a codec reads back the values that its format can hold, and nothing in place of others. -/
structure Lawful (codec : Codec α) : Prop where
  read_write : ∀ value, codec.admits value → ∀ rest,
    codec.read (codec.write value ++ rest) = .ok (value, rest)
  refuses : ∀ value, ¬ codec.admits value → ∀ rest,
    ∃ fault, codec.read (codec.write value ++ rest) = .error fault

/-- Numbers are read back if they are below the limit of their format. -/
theorem lawful_number {format : NumberFormat} (htop : format.top < 128) (hwidth : 0 < format.width) :
    (number format).Lawful := by
  have hread (n : Nat) (rest : Bytes) : (number format).read ((number format).write n ++ rest) =
      if n < format.limit then .ok (n, rest) else .error .endlessNumber := by
    have hpositive : format.width - 1 + 1 = format.width := by omega
    have hwithin := NumberFormat.readWithin_writeWithin htop (format.width - 1) n rest
    rw [hpositive] at hwithin
    exact hwithin
  exact ⟨fun n hn rest => (hread n rest).trans (if_pos hn),
    fun n hn rest => ⟨_, (hread n rest).trans (if_neg hn)⟩⟩

theorem lawful_word32 : word32.Lawful := lawful_number (by decide) (by decide)

theorem lawful_word64 : word64.Lawful := lawful_number (by decide) (by decide)

theorem lawful_bool : bool.Lawful where
  read_write value _ rest := by cases value <;> rfl
  refuses _ h := absurd trivial h

/-- Optional values are read back if the values are. -/
theorem Lawful.optional {codec : Codec α} (h : codec.Lawful) : (optional codec).Lawful where
  read_write value hvalue rest := by
    cases value with
    | none => rfl
    | some value =>
      simp only [Codec.optional, List.cons_append, h.read_write value (hvalue value rfl)]
      rfl
  refuses value hvalue rest := by
    cases value with
    | none => exact absurd (fun _ hx => nomatch hx) hvalue
    | some value =>
      have hinner : ¬ codec.admits value := fun hadmits => hvalue fun x hx => by
        cases hx
        exact hadmits
      obtain ⟨fault, hfault⟩ := h.refuses value hinner rest
      simp only [Codec.optional, List.cons_append, hfault]
      exact ⟨fault, rfl⟩

/-- One of some values is read back by its index. -/
theorem lawful_oneOf [DecidableEq α] (values : List α) : (oneOf values).Lawful where
  read_write value hvalue rest := by
    have hlt := List.idxOf_lt_length_of_mem hvalue.1
    have hfound : values[values.idxOf value]? = some value := by
      rw [List.getElem?_eq_getElem hlt, List.getElem_idxOf hlt]
    simp only [oneOf, lawful_word32.read_write _ hvalue.2, hfound]
  refuses value hvalue rest := by
    by_cases hindex : word32.admits (values.idxOf value)
    · have hout : value ∉ values := fun hin => hvalue ⟨hin, hindex⟩
      have hmissing : values[values.idxOf value]? = none := by
        rw [List.idxOf_eq_length hout, List.getElem?_eq_none (Nat.le_refl _)]
      exact ⟨.value, by simp only [oneOf, lawful_word32.read_write _ hindex, hmissing]⟩
    · obtain ⟨fault, hfault⟩ := lawful_word32.refuses _ hindex rest
      exact ⟨fault, by simp only [oneOf, hfault]⟩

/-- Values are read back one after the other. -/
theorem Lawful.readMany_eq_ok {codec : Codec α} (h : codec.Lawful) {values : List α}
    (hvalues : ∀ value ∈ values, codec.admits value) (rest : Bytes) :
    readMany codec.read values.length (values.flatMap codec.write ++ rest) = .ok (values, rest) := by
  induction values with
  | nil => rfl
  | cons value later ih =>
    obtain ⟨hvalue, hlater⟩ := List.forall_mem_cons.mp hvalues
    rw [List.length_cons, List.flatMap_cons, List.append_assoc, readMany, h.read_write value hvalue]
    dsimp only
    rw [ih hlater]

/-- Values are not read back if one of them is not. -/
theorem Lawful.exists_readMany_eq_error {codec : Codec α} (h : codec.Lawful) {values : List α}
    (hvalues : ¬ ∀ value ∈ values, codec.admits value) (rest : Bytes) :
    ∃ fault, readMany codec.read values.length (values.flatMap codec.write ++ rest) = .error fault := by
  induction values with
  | nil => exact absurd (List.forall_mem_nil _) hvalues
  | cons value later ih =>
    rw [List.length_cons, List.flatMap_cons, List.append_assoc, readMany]
    by_cases hvalue : codec.admits value
    · have hlater : ¬ ∀ value ∈ later, codec.admits value :=
        fun hall => hvalues (List.forall_mem_cons.mpr ⟨hvalue, hall⟩)
      obtain ⟨fault, hfault⟩ := ih hlater
      rw [h.read_write value hvalue]
      dsimp only
      rw [hfault]
      exact ⟨fault, rfl⟩
    · obtain ⟨fault, hfault⟩ := h.refuses value hvalue (later.flatMap codec.write ++ rest)
      rw [hfault]
      exact ⟨fault, rfl⟩

/-- Lists are read back if they are not too long and all their values are. -/
theorem Lawful.list {codec : Codec α} (h : codec.Lawful) : (list codec).Lawful where
  read_write values hvalues rest := by
    simp only [Codec.list, List.append_assoc, lawful_word64.read_write _ hvalues.1,
      h.readMany_eq_ok hvalues.2]
  refuses values hvalues rest := by
    simp only [Codec.list, List.append_assoc]
    by_cases hlength : word64.admits values.length
    · rw [lawful_word64.read_write _ hlength]
      exact h.exists_readMany_eq_error (fun hall => hvalues ⟨hlength, hall⟩) rest
    · obtain ⟨fault, hfault⟩ :=
        lawful_word64.refuses _ hlength (values.flatMap codec.write ++ rest)
      rw [hfault]
      exact ⟨fault, rfl⟩

theorem lawful_bytes : bytes.Lawful where
  read_write content hcontent rest := by
    simp [bytes, List.append_assoc, lawful_word64.read_write _ hcontent]
  refuses content hcontent rest := by
    obtain ⟨fault, hfault⟩ := lawful_word64.refuses _ hcontent (content ++ rest)
    exact ⟨fault, by simp only [bytes, List.append_assoc, hfault]⟩

/-- Values are read back if they can be made from what is stored of them. -/
theorem Lawful.stored {codec : Codec α} (h : codec.Lawful) {parts : β → α}
    {make : α → Except WireFault β} (hmake : ∀ value, make (parts value) = .ok value) :
    (stored codec parts make).Lawful where
  read_write value hvalue rest := by
    simp only [Codec.stored, h.read_write (parts value) hvalue, hmake]
  refuses value hvalue rest := by
    obtain ⟨fault, hfault⟩ := h.refuses (parts value) hvalue rest
    exact ⟨fault, by simp only [Codec.stored, hfault]⟩

/-- Two values are read back if both are. -/
theorem Lawful.pair {first : Codec α} {second : Codec β} (h : first.Lawful) (h' : second.Lawful) :
    (first.pair second).Lawful where
  read_write value hvalue rest := by
    simp only [Codec.pair, List.append_assoc, h.read_write _ hvalue.1, h'.read_write _ hvalue.2]
  refuses value hvalue rest := by
    simp only [Codec.pair, List.append_assoc]
    by_cases hfirst : first.admits value.1
    · have hsecond : ¬ second.admits value.2 := fun hadmits => hvalue ⟨hfirst, hadmits⟩
      obtain ⟨fault, hfault⟩ := h'.refuses _ hsecond rest
      rw [h.read_write _ hfirst]
      dsimp only
      rw [hfault]
      exact ⟨fault, rfl⟩
    · obtain ⟨fault, hfault⟩ := h.refuses _ hfirst (second.write value.2 ++ rest)
      rw [hfault]
      exact ⟨fault, rfl⟩

/-- Records are read back if their parts are. -/
theorem Lawful.record {codec : Codec α} (h : codec.Lawful) {parts : β → α} {make : α → β}
    (hmake : ∀ value, make (parts value) = value) : (record codec parts make).Lawful :=
  h.stored fun value => congrArg Except.ok (hmake value)

theorem lawful_text : text.Lawful := by
  refine lawful_bytes.stored fun value => ?_
  have hbytes : (⟨value.toUTF8.data.toList.toArray⟩ : ByteArray) = value.toUTF8 := by
    rw [Array.toArray_toList]
  rw [hbytes, String.fromUTF8?, dif_pos (show value.toUTF8.IsValidUTF8 from value.isValidUTF8)]
  rfl

theorem lawful_settings : settings.Lawful :=
  ((lawful_oneOf _).pair (lawful_word64.pair (lawful_bool.pair lawful_bool))).record fun _ => by rfl

theorem lawful_codeRange : codeRange.Lawful :=
  ((lawful_oneOf _).pair (lawful_word32.optional.pair
    (lawful_word32.pair (lawful_word32.pair lawful_word32)))).record fun _ => by rfl

theorem lawful_callSite : callSite.Lawful :=
  (lawful_word32.pair ((lawful_oneOf _).pair lawful_word32)).record fun _ => by rfl

theorem lawful_trapSite : trapSite.Lawful :=
  (lawful_word32.pair ((lawful_oneOf _).pair lawful_word32)).record fun _ => by rfl

theorem lawful_stackMap : stackMap.Lawful :=
  (lawful_word32.pair (lawful_word32.pair lawful_word32.list)).record fun _ => by rfl

theorem lawful_tryNote : tryNote.Lawful :=
  (lawful_word32.pair (lawful_word32.pair (lawful_word32.pair lawful_word32))).record fun _ => by rfl

theorem lawful_unwindInfo : unwindInfo.Lawful :=
  (lawful_word32.pair (lawful_oneOf _)).record fun _ => by rfl

theorem lawful_funcExport : funcExport.Lawful :=
  (lawful_word32.pair (lawful_word32.pair lawful_word32.optional)).record fun _ => by rfl

theorem lawful_funcSpan : funcSpan.Lawful :=
  (lawful_word32.pair lawful_word32).record fun _ => by rfl

theorem lawful_codeTables : codeTables.Lawful :=
  (lawful_funcSpan.pair (lawful_codeRange.list.pair (lawful_callSite.list.pair
    (lawful_trapSite.list.pair (lawful_stackMap.list.pair (lawful_tryNote.list.pair
      (lawful_unwindInfo.list.pair lawful_funcExport.list))))))).record fun _ => by rfl

theorem lawful_compiledBlock : compiledBlock.Lawful :=
  ((lawful_oneOf _).pair (lawful_bytes.pair lawful_codeTables)).record fun _ => by rfl

theorem lawful_internalPatch : internalPatch.Lawful :=
  (lawful_word32.pair (lawful_word32.pair (lawful_oneOf _))).record fun _ => by rfl

/-- Symbol sites are read back from their lists, as there is one for each symbol. -/
theorem lawful_symbolSites : symbolSites.Lawful := by
  refine lawful_word32.list.list.stored fun sites => ?_
  have hlists : PatchPlan.sitesOfLists (RuntimeSymbol.all.map sites) = .ok sites :=
    PatchPlan.sitesOfLists_symbolLists { symbolic := sites }
  rw [hlists]

theorem lawful_patchPlan : patchPlan.Lawful :=
  (lawful_word32.pair (lawful_internalPatch.list.pair lawful_symbolSites)).record fun _ => by rfl

theorem lawful_image : image.Lawful :=
  (lawful_settings.pair (lawful_word32.list.pair (lawful_text.pair (lawful_text.list.pair
    (lawful_compiledBlock.pair (lawful_patchPlan.pair
      (lawful_compiledBlock.pair lawful_patchPlan))))))).record fun _ => by rfl

end Codec

namespace Image

variable {image : Image}

/-- An image whose numbers fit is read back from its bytes, whatever follows them. -/
theorem ofBytes_toBytes_append (h : Codec.image.admits image) (rest : Bytes) :
    ofBytes (image.toBytes ++ rest) = .ok image := by
  rw [toBytes, List.cons_append, ofBytes, if_neg (not_not_intro rfl), Codec.lawful_image.read_write image h]

/-- Nothing but the image itself is read back from its bytes. -/
theorem eq_of_ofBytes_toBytes {other : Image} (h : ofBytes image.toBytes = .ok other) :
    other = image := by
  by_cases hfits : Codec.image.admits image
  · have hread := ofBytes_toBytes_append hfits []
    rw [List.append_nil, h] at hread
    exact Except.ok.inj hread
  · obtain ⟨fault, hfault⟩ := Codec.lawful_image.refuses image hfits []
    rw [List.append_nil] at hfault
    rw [toBytes, ofBytes, if_neg (not_not_intro rfl), hfault] at h
    contradiction

end Image

end CompiledCode

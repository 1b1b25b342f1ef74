import CompiledCode.Image.Store
import CompiledCode.Proofs.Image.Codec
import CompiledCode.Proofs.Process.Run

/-!
# Where the bytes of an image end

No codec looks past the value that it reads: as long as the input does not run out, more input
changes nothing but what is left over. So a value that is cut short anywhere cannot be read, as
the input would have to run out where the whole of it did not.

Readers are put together in one way only, one after the other, and the law is kept by that. What
is read first decides how to go on: with a number of values, with one of several values, or not
at all.
-/

namespace CompiledCode

/-- What reads a value from the front of an input and leaves the input after it. -/
abbrev Reader (α : Type) := Bytes → Except WireFault (α × Bytes)

namespace Reader

variable {α β : Type}

/-- Whether more input changes nothing but the rest, unless the input runs out. -/
def Streams (read : Reader α) : Prop :=
  ∀ input more, read input ≠ .error .endOfInput →
    read (input ++ more) = (read input).map fun (value, rest) => (value, rest ++ more)

/-- Reads with one reader, and then with another one that depends on the value. -/
def andThen (read : Reader α) (next : α → Reader β) : Reader β := fun input =>
  match read input with
  | .error fault => .error fault
  | .ok (value, rest) => next value rest

/-- Reads one byte, and then with a reader that depends on it. -/
def onByte (next : UInt8 → Reader α) : Reader α
  | [] => .error .endOfInput
  | byte :: rest => next byte rest

/-- Having read a value needs no input. -/
theorem streams_done (value : α) : Streams fun input => .ok (value, input) := fun _ _ _ => rfl

/-- Neither does refusing to read on. -/
theorem streams_refuse (fault : WireFault) : Streams (fun _ => .error fault : Reader α) :=
  fun _ _ _ => rfl

/-- Takes what was made before, or refuses if nothing was made. -/
def made (result : Except WireFault α) : Reader α := fun input =>
  match result with
  | .ok value => .ok (value, input)
  | .error fault => .error fault

/-- Having made a value or not, no more input is needed. -/
theorem streams_made (result : Except WireFault α) : (made result).Streams := by
  cases result with
  | ok value => exact streams_done value
  | error fault => exact streams_refuse fault

/-- One reader after the other does not look past the value if neither does. -/
theorem Streams.andThen {read : Reader α} {next : α → Reader β} (h : read.Streams)
    (hnext : ∀ value, (next value).Streams) : (read.andThen next).Streams := by
  intro input more hmore
  unfold Reader.andThen at hmore ⊢
  cases hread : read input with
  | error fault =>
    rw [hread] at hmore
    rw [h input more (by simpa [hread] using hmore), hread]
    rfl
  | ok result =>
    obtain ⟨value, rest⟩ := result
    rw [hread] at hmore
    rw [h input more (by simp [hread]), hread]
    exact hnext value rest more hmore

/-- A byte and what follows it are not looked past if what follows is not. -/
theorem streams_onByte {next : UInt8 → Reader α} (hnext : ∀ byte, (next byte).Streams) :
    (onByte next).Streams := by
  intro input more hmore
  cases input with
  | nil => exact absurd rfl hmore
  | cons byte rest => exact hnext byte rest more hmore

/-- A choice that does not depend on the input does not look past a value if neither way does. -/
theorem Streams.ite {condition : Prop} [Decidable condition] {read read' : Reader α}
    (h : read.Streams) (h' : read'.Streams) :
    Streams fun input => if condition then read input else read' input := by
  by_cases hcondition : condition
  · simpa only [if_pos hcondition] using h
  · simpa only [if_neg hcondition] using h'

/-- So many bytes as they are. -/
def take (count : Nat) : Reader Bytes := fun input =>
  if (input.take count).length < count then .error .endOfInput
  else .ok (input.take count, input.drop count)

/-- A number of bytes is not looked past. -/
theorem streams_take (count : Nat) : (take count).Streams := by
  intro input more hmore
  unfold take at hmore ⊢
  by_cases hshort : (input.take count).length < count
  · exact absurd (if_pos hshort) hmore
  · have hcount : count ≤ input.length := by
      rw [List.length_take] at hshort
      omega
    rw [if_neg hshort, List.take_append_of_le_length hcount, List.drop_append_of_le_length hcount,
      if_neg hshort]
    rfl

/-- Numbers are not looked past, however many bytes they take. -/
theorem streams_readWithin (top width : Nat) : Streams (NumberFormat.readWithin top width) := by
  induction width with
  | zero => exact streams_refuse .endlessNumber
  | succ width ih =>
    have hopen : NumberFormat.readWithin top (width + 1) = onByte fun byte input =>
        if byte.toNat < 128 then
          if width = 0 ∧ top < byte.toNat then .error .endlessNumber else .ok (byte.toNat, input)
        else Reader.andThen (NumberFormat.readWithin top width)
          (fun high rest => .ok (byte.toNat - 128 + 128 * high, rest)) input := by
      funext input
      cases input with
      | nil => rfl
      | cons byte input =>
        simp only [NumberFormat.readWithin, onByte, Reader.andThen]
        cases NumberFormat.readWithin top width input <;> rfl
    rw [hopen]
    apply streams_onByte
    intro byte
    apply Streams.ite
    · exact (streams_refuse _).ite (streams_done _)
    · exact ih.andThen fun high => streams_done _

/-- Several values are not looked past if each of them is not. -/
theorem Streams.readMany {read : Reader α} (h : read.Streams) (count : Nat) :
    Streams (Codec.readMany read count) := by
  induction count with
  | zero => exact streams_done []
  | succ count ih =>
    have hopen : Codec.readMany read (count + 1) = read.andThen fun value =>
        Reader.andThen (Codec.readMany read count) fun values rest => .ok (value :: values, rest) := by
      funext input
      simp only [Codec.readMany, Reader.andThen]
      cases read input with
      | error fault => rfl
      | ok result =>
        obtain ⟨value, rest⟩ := result
        dsimp only
        cases Codec.readMany read count rest <;> rfl
    rw [hopen]
    exact h.andThen fun value => ih.andThen fun values => streams_done _

end Reader

namespace Codec

open Reader

variable {α β : Type}

theorem streams_number (format : NumberFormat) : Streams (number format).read :=
  streams_readWithin format.top format.width

theorem streams_word32 : Streams word32.read := streams_number .word32

theorem streams_word64 : Streams word64.read := streams_number .word64

theorem streams_bool : Streams bool.read := by
  have hopen : bool.read = onByte fun byte rest =>
      if byte = 0 then .ok (false, rest)
      else if byte = 1 then .ok (true, rest)
      else .error .truthValue := by
    funext input
    cases input <;> rfl
  rw [hopen]
  exact streams_onByte fun byte => (streams_done _).ite ((streams_done _).ite (streams_refuse _))

/-- Optional values are not looked past if the values are not. -/
theorem streams_optional {codec : Codec α} (h : Streams codec.read) :
    Streams (optional codec).read := by
  have hopen : (optional codec).read = onByte fun byte input =>
      if byte = 0 then .ok (none, input)
      else if byte = 1 then
        Reader.andThen codec.read (fun value rest => .ok (some value, rest)) input
      else .error .optionMark := by
    funext input
    cases input with
    | nil => rfl
    | cons byte input =>
      simp only [optional, onByte, Reader.andThen]
      cases codec.read input <;> rfl
  rw [hopen]
  apply streams_onByte
  intro byte
  exact (streams_done _).ite ((h.andThen fun value => streams_done _).ite (streams_refuse _))

theorem streams_oneOf [DecidableEq α] (values : List α) : Streams (oneOf values).read := by
  have hopen : (oneOf values).read = Reader.andThen word32.read fun index =>
      made (values[index]?.elim (.error .value) .ok) := by
    funext input
    simp only [oneOf, Reader.andThen]
    cases word32.read input with
    | error fault => rfl
    | ok result =>
      obtain ⟨index, rest⟩ := result
      cases hvalue : values[index]? <;> simp [hvalue, made]
  rw [hopen]
  exact streams_word32.andThen fun index => streams_made _

/-- Lists are not looked past if their values are not. -/
theorem streams_list {codec : Codec α} (h : Streams codec.read) : Streams (list codec).read := by
  have hopen : (list codec).read = Reader.andThen word64.read (readMany codec.read) := by
    funext input
    simp only [list, Reader.andThen]
    cases word64.read input <;> rfl
  rw [hopen]
  exact streams_word64.andThen h.readMany

theorem streams_bytes : Streams bytes.read := by
  have hopen : bytes.read = Reader.andThen word64.read take := by
    funext input
    simp only [bytes, Reader.andThen]
    cases word64.read input <;> rfl
  rw [hopen]
  exact streams_word64.andThen streams_take

/-- Whether or not a value can be made of what is stored, what is stored is not looked past. -/
theorem streams_stored {codec : Codec α} (h : Streams codec.read) (parts : β → α)
    (make : α → Except WireFault β) : Streams (stored codec parts make).read := by
  have hopen : (stored codec parts make).read =
      Reader.andThen codec.read fun value => made (make value) := rfl
  rw [hopen]
  exact h.andThen fun value => streams_made (make value)

/-- Two values are not looked past if neither is. -/
theorem streams_pair {first : Codec α} {second : Codec β} (h : Streams first.read)
    (h' : Streams second.read) : Streams (first.pair second).read := by
  have hopen : (first.pair second).read = Reader.andThen first.read fun a =>
      Reader.andThen second.read fun b rest => .ok ((a, b), rest) := rfl
  rw [hopen]
  exact h.andThen fun a => h'.andThen fun b => streams_done (a, b)

/-- Records are not looked past if their parts are not. -/
theorem streams_record {codec : Codec α} (h : Streams codec.read) (parts : β → α) (make : α → β) :
    Streams (record codec parts make).read := streams_stored h parts _

theorem streams_text : Streams text.read := streams_stored streams_bytes _ _

theorem streams_settings : Streams settings.read :=
  streams_record (streams_pair (streams_oneOf _)
    (streams_pair streams_word64 (streams_pair streams_bool streams_bool))) _ _

theorem streams_codeRange : Streams codeRange.read :=
  streams_record (streams_pair (streams_oneOf _) (streams_pair (streams_optional streams_word32)
    (streams_pair streams_word32 (streams_pair streams_word32 streams_word32)))) _ _

theorem streams_callSite : Streams callSite.read :=
  streams_record (streams_pair streams_word32 (streams_pair (streams_oneOf _) streams_word32)) _ _

theorem streams_trapSite : Streams trapSite.read :=
  streams_record (streams_pair streams_word32 (streams_pair (streams_oneOf _) streams_word32)) _ _

theorem streams_stackMap : Streams stackMap.read :=
  streams_record (streams_pair streams_word32
    (streams_pair streams_word32 (streams_list streams_word32))) _ _

theorem streams_tryNote : Streams tryNote.read :=
  streams_record (streams_pair streams_word32 (streams_pair streams_word32
    (streams_pair streams_word32 streams_word32))) _ _

theorem streams_unwindInfo : Streams unwindInfo.read :=
  streams_record (streams_pair streams_word32 (streams_oneOf _)) _ _

theorem streams_funcExport : Streams funcExport.read :=
  streams_record (streams_pair streams_word32
    (streams_pair streams_word32 (streams_optional streams_word32))) _ _

theorem streams_funcSpan : Streams funcSpan.read :=
  streams_record (streams_pair streams_word32 streams_word32) _ _

theorem streams_codeTables : Streams codeTables.read :=
  streams_record (streams_pair streams_funcSpan (streams_pair (streams_list streams_codeRange)
    (streams_pair (streams_list streams_callSite) (streams_pair (streams_list streams_trapSite)
      (streams_pair (streams_list streams_stackMap) (streams_pair (streams_list streams_tryNote)
        (streams_pair (streams_list streams_unwindInfo) (streams_list streams_funcExport)))))))) _ _

theorem streams_compiledBlock : Streams compiledBlock.read :=
  streams_record (streams_pair (streams_oneOf _) (streams_pair streams_bytes streams_codeTables)) _ _

theorem streams_internalPatch : Streams internalPatch.read :=
  streams_record (streams_pair streams_word32 (streams_pair streams_word32 (streams_oneOf _))) _ _

theorem streams_symbolSites : Streams symbolSites.read :=
  streams_stored (streams_list (streams_list streams_word32)) _ _

theorem streams_patchPlan : Streams patchPlan.read :=
  streams_record (streams_pair streams_word32
    (streams_pair (streams_list streams_internalPatch) streams_symbolSites)) _ _

theorem streams_image : Streams image.read :=
  streams_record (streams_pair streams_settings (streams_pair (streams_list streams_word32)
    (streams_pair streams_text (streams_pair (streams_list streams_text)
      (streams_pair streams_compiledBlock (streams_pair streams_patchPlan
        (streams_pair streams_compiledBlock streams_patchPlan))))))) _ _

/-- A value that is cut short anywhere is one at which the input ends. -/
theorem Lawful.read_cut {codec : Codec α} (h : codec.Lawful) (hstreams : Streams codec.read)
    {value : α} (hvalue : codec.admits value) {cut tail : Bytes}
    (hcut : cut ++ tail = codec.write value) (htail : tail ≠ []) :
    codec.read cut = .error .endOfInput := by
  by_contra hread
  have hwhole := h.read_write value hvalue []
  rw [List.append_nil, ← hcut, hstreams cut tail hread] at hwhole
  cases hresult : codec.read cut with
  | error fault =>
    rw [hresult] at hwhole
    contradiction
  | ok result =>
    rw [hresult] at hwhole
    have hrest := congrArg Prod.snd (Except.ok.inj hwhole)
    exact htail (List.append_eq_nil_iff.mp hrest).2

end Codec

namespace Image

/-- An image cut short is refused: it is empty, or it ends in the middle of a value. -/
theorem ofBytes_cut {image : Image} (h : Codec.image.admits image) {cut tail : Bytes}
    (hcut : cut ++ tail = image.toBytes) (htail : tail ≠ []) :
    ofBytes cut = .error (if cut = [] then .empty else .wire .endOfInput) := by
  cases cut with
  | nil => rfl
  | cons version content =>
    obtain ⟨hversion, hcontent⟩ := List.cons_eq_cons.mp hcut
    subst hversion
    rw [ofBytes, if_neg (not_not_intro rfl),
      Codec.lawful_image.read_cut Codec.streams_image h hcontent htail, if_neg (List.cons_ne_nil _ _)]

/-- The numbers of an image fit if and only if it can be read back. -/
theorem admits_iff_isOk (image : Image) :
    Codec.image.admits image ↔ (ofBytes image.toBytes).isOk = true := by
  constructor
  · intro hfits
    have hread := ofBytes_toBytes_append hfits []
    rw [List.append_nil] at hread
    rw [hread]
    rfl
  · intro hread
    by_contra hfits
    obtain ⟨fault, hfault⟩ := Codec.lawful_image.refuses image hfits []
    rw [List.append_nil] at hfault
    rw [toBytes, ofBytes, if_neg (not_not_intro rfl), hfault] at hread
    contradiction

/-- The bytes of an image tell where they end. If its numbers fit their formats, then the image and
nothing else is read back from its bytes, whatever follows them, and that is what is loaded; and its
bytes cut short anywhere, be it before the first one, are refused as malformed without any effect. -/
theorem images_are_self_delimiting {image : Image} (h : Codec.image.admits image) :
    (∀ rest, ofBytes (image.toBytes ++ rest) = .ok image) ∧
    (∀ rest settings symbols, ModuleCode.load settings symbols (image.toBytes ++ rest) =
      ModuleCode.ofImage settings symbols image) ∧
    ∀ cut, cut <+: image.toBytes → cut ≠ image.toBytes →
      ∃ fault, ofBytes cut = .error fault ∧ ∀ settings symbols engine,
        ModuleCode.load settings symbols cut engine =
          .error (.failure { cause := .malformedImage fault }) engine := by
  refine ⟨ofBytes_toBytes_append h, fun rest settings symbols => ?_, fun cut hcut hproper => ?_⟩
  · rw [ModuleCode.load, ofBytes_toBytes_append h]
  · obtain ⟨tail, htail⟩ := hcut
    have hsome : tail ≠ [] := by
      rintro rfl
      exact hproper (by rw [← htail, List.append_nil])
    have hread := ofBytes_cut h htail hsome
    refine ⟨_, hread, fun settings symbols engine => ?_⟩
    rw [ModuleCode.load, hread]
    rfl

/-- The image of one function is read back with bytes after it, and not without its last byte. -/
theorem images_are_self_delimiting_of_oneFunction :
    ofBytes (oneFunction.toBytes ++ [1, 2, 3]) = .ok oneFunction ∧
      (ofBytes oneFunction.toBytes.dropLast).isOk = false := by
  have hfits : Codec.image.admits oneFunction := (admits_iff_isOk _).mpr (by decide +kernel)
  obtain ⟨hread, -, hcut⟩ := images_are_self_delimiting hfits
  obtain ⟨fault, hfault, -⟩ := hcut _ (List.dropLast_prefix _) (by decide +kernel)
  exact ⟨hread _, by rw [hfault]; rfl⟩

end Image

end CompiledCode

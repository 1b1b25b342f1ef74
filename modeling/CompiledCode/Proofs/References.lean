import CompiledCode.Proofs.Sites

/-!
# Where patched references lead

A plan is a list of references, each with a site in the code and an address that it is to lead to.
Whether they can be patched is up to the references one by one, and not to where the code lives:
targets and sites have to be in the code, distances within the reach of four signed bytes, and
symbols defined. Code that was patched is read back to the addresses that its references are to lead
to, and the bytes outside of their sites are as they were. Where a reference does not fit, the ones
before it have been patched and nothing else has.
-/

namespace CompiledCode

/-- One reference in code that is to be patched. -/
inductive Reference where
  /-- A reference to another place in the code. -/
  | internal (patch : InternalPatch)
  /-- A reference to a runtime symbol. -/
  | symbolic (symbol : RuntimeSymbol) (site : Nat)
  deriving DecidableEq

/-- The addresses of runtime symbols: that of the trap handler for its own symbol, if there is one, and those
in the table for all others. -/
def SymbolTable.withHandler (symbols : SymbolTable) : Option UInt64 → SymbolTable
  | some handler => Function.update symbols .handleTrap (some handler)
  | none => symbols

/-- Symbols resolve to these addresses. -/
theorem resolveSymbol_eq (symbols : SymbolTable) (trapHandler : Option UInt64) :
    resolveSymbol symbols trapHandler = symbols.withHandler trapHandler := by
  funext symbol
  cases trapHandler with
  | none => cases symbol <;> rfl
  | some handler =>
    rw [SymbolTable.withHandler]
    by_cases hsymbol : symbol = .handleTrap
    · rw [hsymbol, Function.update_self]
      rfl
    · rw [Function.update_of_ne hsymbol, resolveSymbol]
      exact fun _ hhandle _ => hsymbol hhandle

/-- A number that fits into some bytes is read back from them. -/
theorem ofLittleEndian_of_lt {width n : Nat} (h : n < 1 <<< (8 * width)) :
    ofLittleEndian (littleEndian width n) = n := by
  rw [ofLittleEndian_littleEndian, Nat.mod_eq_of_lt h]

/-- A signed number that fits into four bytes is read back from them. -/
theorem bmod_ofLittleEndian {distance : Int} (hfrom : -0x80000000 ≤ distance)
    (hto : distance < 0x80000000) :
    Int.bmod (ofLittleEndian (littleEndian 4 (distance % UInt32.size).toNat)) UInt32.size =
      distance := by
  have hheld : ((distance % UInt32.size).toNat : Int) = distance % UInt32.size :=
    Int.toNat_of_nonneg (Int.emod_nonneg _ (by decide))
  have hsmall : (distance % UInt32.size).toNat < 1 <<< (8 * 4) := by
    have hlt := Int.emod_lt_of_pos distance (b := UInt32.size) (by decide)
    simp only [UInt32.size] at hlt ⊢
    omega
  rw [ofLittleEndian_of_lt hsmall, hheld, Int.emod_bmod]
  exact Int.bmod_eq_of_le (by simp only [UInt32.size]; omega) (by simp only [UInt32.size]; omega)

namespace Reference

/-- The offset of the bytes that hold a reference. -/
def site : Reference → Nat
  | internal patch => patch.site
  | symbolic _ site => site

/-- How a reference holds its target; symbols are referred to by their addresses. -/
def encoding : Reference → Encoding
  | internal patch => patch.encoding
  | symbolic _ _ => .absolute

/-- The bytes that hold a reference, given by where they start and how many there are. -/
def stretch (reference : Reference) : Nat × Nat := (reference.site, reference.encoding.width)

/-- The address that a reference in code at `base` is to lead to, if it is known. -/
def target? (base : Nat) (resolve : SymbolTable) : Reference → Option Nat
  | internal patch => some (base + patch.target)
  | symbolic symbol _ => (resolve symbol).map (·.toNat)

/-- The address that a reference in code at `base` is read as. -/
def readAt (base : Nat) (code : Bytes) (reference : Reference) : Int :=
  let held := ofLittleEndian ((code.drop reference.site).take reference.encoding.width)
  match reference.encoding with
  | .absolute => held
  | .relative32 => Int.bmod held UInt32.size + (base + reference.site + 4)

/-- Whether a reference can be patched in code of some length. -/
def Fits (length : Nat) (resolve : SymbolTable) : Reference → Prop
  | internal patch =>
    patch.target ≤ length ∧ patch.site + patch.encoding.width ≤ length ∧
      (patch.encoding = .relative32 →
        -0x80000000 ≤ (patch.target - (patch.site + 4) : Int) ∧
          (patch.target - (patch.site + 4) : Int) < 0x80000000)
  | symbolic symbol site => (resolve symbol).isSome = true ∧ site + 8 ≤ length

/-- Whether the addresses that a reference is about are far from the largest number. -/
def Addressable (base : Nat) : Reference → Prop
  | internal patch =>
    base + patch.target < 0x8000000000000000 ∧ base + patch.site + 4 < 0x8000000000000000
  | symbolic _ _ => True

/-- The bytes that make a reference lead to an address. -/
def bytesFor (base address : Nat) (reference : Reference) : Bytes :=
  match reference.encoding with
  | .absolute => littleEndian 8 address
  | .relative32 =>
    littleEndian 4 (((address : Int) - (base + reference.site + 4)) % UInt32.size).toNat

/-- Code with one reference patched, if it is known where that is to lead. -/
def write (base : Nat) (resolve : SymbolTable) (code : Bytes) (reference : Reference) : Bytes :=
  match reference.target? base resolve with
  | some address => code.overwrite reference.site (reference.bytesFor base address)
  | none => code

/-- The patch for one reference. -/
def patch (base length : Nat) (resolve : SymbolTable) : Reference → Patch
  | internal patch => patch.applied base length
  | symbolic symbol site =>
    match resolve symbol with
    | some address => .write site (littleEndian 8 address.toNat)
    | none => .refuse (.unresolvedSymbol symbol)

variable {base length address : Nat} {resolve : SymbolTable} {reference : Reference}

/-- There are as many bytes as the reference has room for. -/
@[simp] theorem length_bytesFor (base address : Nat) (reference : Reference) :
    (reference.bytesFor base address).length = reference.encoding.width := by
  rw [bytesFor]
  cases reference.encoding <;> simp [Encoding.width]

/-- The distance to a target is the same wherever the code is. -/
theorem signed64_sub_signed64 {patch : InternalPatch}
    (hbase : (internal patch).Addressable base) :
    signed64 (base + patch.target) - signed64 (base + patch.site + 4) =
      patch.target - (patch.site + 4) := by
  rw [signed64_of_lt hbase.1, signed64_of_lt hbase.2]
  omega

/-- A reference that fits is patched by writing the bytes for its target to its site. -/
theorem exists_patch_eq_write (h : reference.Fits length resolve)
    (hbase : reference.Addressable base) :
    ∃ address, reference.target? base resolve = some address ∧
      reference.patch base length resolve =
        .write reference.site (reference.bytesFor base address) := by
  cases reference with
  | symbolic symbol site =>
    obtain ⟨address, haddress⟩ := Option.isSome_iff_exists.mp h.1
    exact ⟨address.toNat, by rw [target?, haddress]; rfl, by rw [patch, haddress]; rfl⟩
  | internal patch =>
    obtain ⟨htarget, -, hreach⟩ := h
    refine ⟨base + patch.target, rfl, ?_⟩
    rw [Reference.patch, InternalPatch.applied, if_neg (Nat.not_lt_of_le htarget),
      signed64_sub_signed64 hbase, bytesFor, site, encoding]
    cases hencoding : patch.encoding with
    | absolute => rfl
    | relative32 =>
      dsimp only
      rw [if_pos (hreach hencoding)]
      congr 4
      omega

/-- A reference goes in where it fits, and nowhere else. -/
theorem fits_patch_iff (hbase : reference.Addressable base) :
    (reference.patch base length resolve).Fits length ↔ reference.Fits length resolve := by
  cases reference with
  | symbolic symbol site =>
    cases hresolve : resolve symbol <;> simp [patch, Fits, Patch.Fits, hresolve]
  | internal patch =>
    rw [Reference.patch, InternalPatch.applied, signed64_sub_signed64 hbase, Fits]
    by_cases htarget : patch.target ≤ length
    · rw [if_neg (Nat.not_lt_of_le htarget)]
      cases hencoding : patch.encoding with
      | absolute => simp [Patch.Fits, htarget, Encoding.width]
      | relative32 =>
        dsimp only
        split
        · rename_i hreach
          simpa [Patch.Fits, htarget, Encoding.width] using fun _ => hreach
        · rename_i hfar
          simp only [Patch.Fits, true_imp_iff, hfar, and_false]
    · rw [if_pos (Nat.lt_of_not_le htarget)]
      simp [Patch.Fits, htarget]

/-- A reference whose bytes are there is read as the address that they are for. -/
theorem readAt_eq {code : Bytes} (h : reference.Fits length resolve)
    (hbase : reference.Addressable base)
    (haddress : reference.target? base resolve = some address)
    (hcode : ∀ i < reference.encoding.width,
      code[reference.site + i]? = (reference.bytesFor base address)[i]?) :
    reference.readAt base code = address := by
  have hheld : (code.drop reference.site).take reference.encoding.width =
      reference.bytesFor base address := by
    refine List.ext_getElem? fun i => ?_
    by_cases hi : i < reference.encoding.width
    · rw [List.getElem?_take_of_lt hi, List.getElem?_drop, hcode i hi]
    · rw [List.getElem?_take_eq_none (Nat.le_of_not_lt hi), List.getElem?_eq_none]
      rw [length_bytesFor]
      exact Nat.le_of_not_lt hi
  rw [readAt, hheld, bytesFor]
  cases reference with
  | symbolic symbol site =>
    obtain ⟨defined, -, rfl⟩ := Option.map_eq_some_iff.mp haddress
    exact congrArg Nat.cast (@ofLittleEndian_of_lt 8 _ defined.toNat_lt)
  | internal patch =>
    obtain rfl := Option.some.inj haddress
    cases hencoding : patch.encoding with
    | absolute =>
      simp only [encoding, hencoding]
      exact congrArg Nat.cast (@ofLittleEndian_of_lt 8 _ (Nat.lt_trans hbase.1 (by decide)))
    | relative32 =>
      simp only [encoding, hencoding, site]
      obtain ⟨hfrom, hto⟩ := h.2.2 hencoding
      rw [bmod_ofLittleEndian (by omega) (by omega)]
      omega

end Reference

namespace Patch

variable {patches others later later' : List Patch} {code : Bytes} {cause : Cause}

/-- Patches run on from where the ones before them left the code, unless these stopped early. -/
theorem runAll_append (patches later : List Patch) (code : Bytes) :
    runAll (patches ++ later) code =
      match (runAll patches code).stopped with
      | none => runAll later (runAll patches code).code
      | some _ => runAll patches code := by
  induction patches generalizing code with
  | nil => rfl
  | cons patch rest ih =>
    rw [List.cons_append, runAll, runAll]
    cases patch.run code with
    | ok next => exact ih next
    | error cause => rfl

/-- Lists of patches that do the same can be exchanged in longer ones. -/
theorem runAll_append_congr (h : runAll patches = runAll others)
    (hlater : runAll later = runAll later') :
    runAll (patches ++ later) = runAll (others ++ later') := by
  funext code
  rw [runAll_append, runAll_append, h, hlater]

/-- Patches for some inputs in turn do the same as others if they do so for each input. -/
theorem runAll_flatMap_congr {α : Type} {f g : α → List Patch}
    (h : ∀ input, runAll (f input) = runAll (g input)) (inputs : List α) :
    runAll (inputs.flatMap f) = runAll (inputs.flatMap g) := by
  induction inputs with
  | nil => rfl
  | cons input rest ih => exact runAll_append_congr (h input) ih

/-- Patches that stop early have all gone in up to one that does not fit. -/
theorem exists_of_stopped (h : (runAll patches code).stopped = some cause) :
    ∃ done failing rest, patches = done ++ failing :: rest ∧
      (∀ patch ∈ done, patch.Fits code.length) ∧ ¬ failing.Fits code.length ∧
      (runAll patches code).code = (runAll done code).code := by
  -- A patch that went in leaves the length of the code as it is, so that what fits stays the same.
  induction patches generalizing code with
  | nil => contradiction
  | cons patch rest ih =>
    rw [runAll] at h ⊢
    cases hrun : patch.run code with
    | error cause =>
      refine ⟨[], patch, rest, rfl, List.forall_mem_nil _, fun hfits => ?_, rfl⟩
      have hcomplete :=
        (stopped_runAll_eq_none_iff [patch] code).mpr (List.forall_mem_singleton.mpr hfits)
      rw [runAll, hrun] at hcomplete
      contradiction
    | ok next =>
      rw [hrun] at h
      obtain ⟨done, failing, behind, rfl, hdone, hfailing, hcode⟩ := ih h
      have hlength := length_run hrun
      have hfits : patch.Fits code.length := by
        refine List.forall_mem_singleton.mp ((stopped_runAll_eq_none_iff [patch] code).mp ?_)
        rw [runAll, hrun]
        rfl
      rw [hlength] at hdone hfailing
      refine ⟨patch :: done, failing, behind, rfl, List.forall_mem_cons.mpr ⟨hfits, hdone⟩,
        hfailing, ?_⟩
      rw [runAll, hrun]
      exact hcode

end Patch

namespace Reference

/-- Whether references have been patched, in turn, in code at `base`, and nothing else has been done
to it. -/
structure InPlace (base : Nat) (resolve : SymbolTable) (references : List Reference)
    (code after : Bytes) : Prop where
  written : after = references.foldl (write base resolve) code
  elsewhere : ∀ i, (∀ reference ∈ references,
    i < reference.site ∨ reference.site + reference.encoding.width ≤ i) → after[i]? = code[i]?
  targets : (references.map stretch).Pairwise Apart → ∀ reference ∈ references, ∃ address,
    reference.target? base resolve = some address ∧ reference.readAt base after = address

variable {base : Nat} {resolve : SymbolTable} {references : List Reference} {code : Bytes}

/-- References that fit are patched where they are. -/
theorem stretches_patch {length : Nat}
    (hfits : ∀ reference ∈ references, reference.Fits length resolve)
    (hbase : ∀ reference ∈ references, reference.Addressable base) :
    (references.map (patch base length resolve)).flatMap Patch.stretch = references.map stretch := by
  rw [List.flatMap_map, List.map_eq_flatMap]
  refine List.flatMap_congr fun reference hin => ?_
  obtain ⟨address, -, hpatch⟩ := exists_patch_eq_write (hfits reference hin) (hbase reference hin)
  rw [hpatch, Patch.stretch, length_bytesFor, stretch]

/-- References that fit are patched by writing the bytes for their targets in turn. -/
theorem code_runAll_eq_foldl {length : Nat} (hlength : code.length = length)
    (hfits : ∀ reference ∈ references, reference.Fits length resolve)
    (hbase : ∀ reference ∈ references, reference.Addressable base) :
    (Patch.runAll (references.map (patch base length resolve)) code).code =
      references.foldl (write base resolve) code := by
  induction references generalizing code with
  | nil => rfl
  | cons reference rest ih =>
    obtain ⟨hfit, hfits⟩ := List.forall_mem_cons.mp hfits
    obtain ⟨haddressable, hbase⟩ := List.forall_mem_cons.mp hbase
    obtain ⟨address, haddress, hpatch⟩ := exists_patch_eq_write hfit haddressable
    have hroom := (fits_patch_iff haddressable).mpr hfit
    rw [hpatch, ← hlength] at hroom
    have hrun : (Patch.write reference.site (reference.bytesFor base address)).run code =
        .ok (write base resolve code reference) := by
      rw [write, haddress]
      exact if_pos hroom
    rw [List.map_cons, hpatch, Patch.runAll, hrun, List.foldl_cons]
    exact ih ((Patch.length_run hrun).trans hlength) hfits hbase

/-- References that fit are in place once they have been patched. -/
theorem inPlace_of_fits (hfits : ∀ reference ∈ references, reference.Fits code.length resolve)
    (hbase : ∀ reference ∈ references, reference.Addressable base) :
    InPlace base resolve references code
      (Patch.runAll (references.map (patch base code.length resolve)) code).code where
  written := code_runAll_eq_foldl rfl hfits hbase
  elsewhere i hi := by
    refine Patch.getElem?_runAll fun htouched => ?_
    obtain ⟨place, hplace, hfrom, hto⟩ := htouched.exists_stretch
    rw [stretches_patch hfits hbase] at hplace
    obtain ⟨reference, hin, rfl⟩ := List.mem_map.mp hplace
    exact (hi reference hin).elim (Nat.not_lt_of_le hfrom) (Nat.not_le_of_lt hto)
  targets hapart reference hin := by
    have hfit := hfits reference hin
    have haddressable := hbase reference hin
    obtain ⟨address, haddress, hpatch⟩ := exists_patch_eq_write hfit haddressable
    have hcomplete :
        (Patch.runAll (references.map (patch base code.length resolve)) code).stopped = none :=
      (Patch.stopped_runAll_eq_none_iff _ _).mpr <| List.forall_mem_map.mpr fun other hother =>
        (fits_patch_iff (hbase other hother)).mpr (hfits other hother)
    rw [← stretches_patch hfits hbase] at hapart
    refine ⟨address, haddress, readAt_eq hfit haddressable haddress fun i hi => ?_⟩
    rw [← length_bytesFor base address] at hi
    exact Patch.getElem?_runAll_of_mem hapart hcomplete (hpatch ▸ List.mem_map_of_mem hin) hi

end Reference

namespace PatchPlan

/-- The references of a plan, in the order in which they are patched. -/
def references (plan : PatchPlan) : List Reference :=
  plan.internal.map .internal ++
    RuntimeSymbol.all.flatMap fun symbol => (plan.symbolic symbol).map (.symbolic symbol)

/-- Whether every reference of a plan can be patched in code of some length. -/
structure Fits (plan : PatchPlan) (length : Nat) (symbols : SymbolTable)
    (trapHandler : Option UInt64) : Prop where
  targets : ∀ patch ∈ plan.internal, patch.target ≤ length
  sites : ∀ patch ∈ plan.internal, patch.site + patch.encoding.width ≤ length
  distances : ∀ patch ∈ plan.internal, patch.encoding = .relative32 →
    -0x80000000 ≤ (patch.target - (patch.site + 4) : Int) ∧
      (patch.target - (patch.site + 4) : Int) < 0x80000000
  symbolSites : ∀ symbol, ∀ site ∈ plan.symbolic symbol, site + 8 ≤ length
  defined : ∀ symbol, plan.symbolic symbol ≠ [] →
    symbol = .handleTrap ∧ trapHandler.isSome = true ∨ (symbols symbol).isSome = true

variable {plan : PatchPlan} {base length : Nat} {symbols : SymbolTable} {trapHandler : Option UInt64}

/-- Patching the sites of a symbol is patching the references to it in turn. -/
theorem runAll_symbolPatches (base length : Nat) (resolve : SymbolTable) (symbol : RuntimeSymbol)
    (sites : List Nat) :
    Patch.runAll (symbolPatches resolve symbol sites) =
      Patch.runAll
        (sites.map fun site => (Reference.symbolic symbol site).patch base length resolve) := by
  funext code
  rw [symbolPatches]
  cases sites with
  | nil => rfl
  | cons site rest =>
    simp only [Reference.patch, List.isEmpty_cons, Bool.false_eq_true, if_false]
    cases resolve symbol <;> rfl

/-- Applying a plan is patching its references in turn. -/
theorem runAll_applied (plan : PatchPlan) (base length : Nat) (resolve : SymbolTable) :
    Patch.runAll (plan.applied base length resolve) =
      Patch.runAll (plan.references.map (Reference.patch base length resolve)) := by
  rw [applied, references, List.map_append, List.map_map, List.map_flatMap]
  refine Patch.runAll_append_congr rfl (Patch.runAll_flatMap_congr (fun symbol => ?_) _)
  rw [List.map_map]
  exact runAll_symbolPatches base length resolve symbol (plan.symbolic symbol)

/-- A plan fits if its references do. -/
theorem fits_iff (plan : PatchPlan) (length : Nat) (symbols : SymbolTable)
    (trapHandler : Option UInt64) : plan.Fits length symbols trapHandler ↔
      ∀ reference ∈ plan.references, reference.Fits length (symbols.withHandler trapHandler) := by
  simp only [references, List.forall_mem_append, List.forall_mem_map, List.forall_mem_flatMap,
    Reference.Fits, ← resolveSymbol_eq, isSome_resolveSymbol_iff]
  constructor
  · intro h
    refine ⟨fun patch hin => ⟨h.targets patch hin, h.sites patch hin, h.distances patch hin⟩,
      fun symbol _ site hsite =>
        ⟨h.defined symbol (List.ne_nil_of_mem hsite), h.symbolSites symbol site hsite⟩⟩
  · rintro ⟨hinternal, hsymbolic⟩
    exact
      { targets := fun patch hin => (hinternal patch hin).1
        sites := fun patch hin => (hinternal patch hin).2.1
        distances := fun patch hin => (hinternal patch hin).2.2
        symbolSites := fun symbol site hsite => (hsymbolic symbol symbol.mem_all site hsite).2
        defined := fun symbol hsome => by
          obtain ⟨site, hsite⟩ := List.exists_mem_of_ne_nil _ hsome
          exact (hsymbolic symbol symbol.mem_all site hsite).1 }

/-- If offsets are numbers of 32 bits and code lies low enough then no address overflows. -/
theorem addressable
    (hwords : ∀ patch ∈ plan.internal, patch.site < UInt32.size ∧ patch.target < UInt32.size)
    (hbase : base + UInt32.size + 4 < 0x8000000000000000) :
    ∀ reference ∈ plan.references, reference.Addressable base := by
  simp only [references, List.forall_mem_append, List.forall_mem_map, List.forall_mem_flatMap,
    Reference.Addressable]
  refine ⟨fun patch hin => ?_, fun _ _ _ _ => trivial⟩
  obtain ⟨hsite, htarget⟩ := hwords patch hin
  omega

/-- A plan is applied without stopping early where it fits. -/
theorem stopped_apply_iff (hbase : ∀ reference ∈ plan.references, reference.Addressable base)
    (code : Bytes) : (plan.apply base symbols trapHandler code).stopped = none ↔
      plan.Fits code.length symbols trapHandler := by
  rw [apply, resolveSymbol_eq, runAll_applied, Patch.stopped_runAll_eq_none_iff, List.forall_mem_map, fits_iff]
  exact forall₂_congr fun reference hin => Reference.fits_patch_iff (hbase reference hin)

/-- Code is patched wherever it lives if its plan fits: targets and sites are in the code, distances
are within the reach of four signed bytes, and symbols that are referred to are defined. Then every
reference leads to its target, unless sites overlap, and nothing else has changed. Otherwise that
holds of the references before the first one that does not fit. -/
theorem references_lead_to_targets (plan : PatchPlan) (base : Nat) (symbols : SymbolTable)
    (trapHandler : Option UInt64) (code : Bytes)
    (hwords : ∀ patch ∈ plan.internal, patch.site < UInt32.size ∧ patch.target < UInt32.size)
    (hbase : base + UInt32.size + 4 < 0x8000000000000000) :
    ((plan.apply base symbols trapHandler code).stopped = none ↔
      plan.Fits code.length symbols trapHandler) ∧
    (∀ base', base' + UInt32.size + 4 < 0x8000000000000000 →
      ((plan.apply base' symbols trapHandler code).stopped = none ↔
        (plan.apply base symbols trapHandler code).stopped = none)) ∧
    ((plan.apply base symbols trapHandler code).stopped = none →
      Reference.InPlace base (symbols.withHandler trapHandler) plan.references code
        (plan.apply base symbols trapHandler code).code) ∧
    ((plan.apply base symbols trapHandler code).stopped ≠ none →
      ∃ done failing rest, plan.references = done ++ failing :: rest ∧
        (∀ reference ∈ done, reference.Fits code.length (symbols.withHandler trapHandler)) ∧
        ¬ failing.Fits code.length (symbols.withHandler trapHandler) ∧
        Reference.InPlace base (symbols.withHandler trapHandler) done code
          (plan.apply base symbols trapHandler code).code) := by
  have haddressable := addressable hwords hbase
  have hstopped : (plan.apply base symbols trapHandler code).stopped = none ↔
      plan.Fits code.length symbols trapHandler := stopped_apply_iff haddressable code
  refine ⟨hstopped, fun base' hbase' => ?_, fun hcomplete => ?_, fun hearly => ?_⟩
  · exact (stopped_apply_iff (addressable hwords hbase') code).trans hstopped.symm
  · rw [apply, resolveSymbol_eq, runAll_applied]
    exact Reference.inPlace_of_fits ((fits_iff ..).mp (hstopped.mp hcomplete)) haddressable
  · obtain ⟨cause, hcause⟩ := Option.ne_none_iff_exists'.mp hearly
    rw [apply, resolveSymbol_eq, runAll_applied] at hcause ⊢
    obtain ⟨patches, patch, others, hsplit, hdone, hfailing, hcode⟩ :=
      Patch.exists_of_stopped hcause
    -- The patches are split as the references are that they are for.
    obtain ⟨done, behind, hreferences, rfl, hbehind⟩ := List.map_eq_append_iff.mp hsplit
    obtain ⟨failing, rest, rfl, rfl, -⟩ := List.map_eq_cons_iff.mp hbehind
    rw [hreferences, List.forall_mem_append, List.forall_mem_cons] at haddressable
    obtain ⟨hbefore, hthere, -⟩ := haddressable
    have hfits : ∀ reference ∈ done,
        reference.Fits code.length (symbols.withHandler trapHandler) := fun reference hin =>
      (Reference.fits_patch_iff (hbefore reference hin)).mp
        (hdone _ (List.mem_map_of_mem hin))
    refine ⟨done, failing, rest, hreferences, hfits,
      fun hfit => hfailing ((Reference.fits_patch_iff hthere).mpr hfit), ?_⟩
    rw [hcode]
    exact Reference.inPlace_of_fits hfits hbefore

/-- Patches of an address, a displacement, a trap exit and a call, end to end, for the end of the code and
its start. -/
def endToEnd : PatchPlan where
  internal := [{ site := 0, target := 28 }, { site := 8, target := 0, encoding := .relative32 }]
  symbolic
    | .handleTrap => [12]
    | .memoryGrow => [20]
    | _ => []

/-- A table with one symbol. -/
def onlyGrowth : SymbolTable
  | .memoryGrow => some 0x8000
  | _ => none

/-- Patches that fill the code lead to both ends of it, to the handler of traps and to the symbol, and
without a handler those before it are in place. -/
theorem references_lead_to_targets_of_endToEnd :
    let code : Bytes := List.replicate 28 0xCC
    let patched := endToEnd.apply 0x1000 onlyGrowth (some 0x7000) code
    let unhandled := endToEnd.apply 0x1000 onlyGrowth none code
    patched.stopped = none ∧
      (∀ reference ∈ endToEnd.references, ∃ address,
        reference.target? 0x1000 (onlyGrowth.withHandler (some 0x7000)) = some address ∧
          reference.readAt 0x1000 patched.code = address) ∧
      endToEnd.references.map (Reference.readAt 0x1000 patched.code) =
        [0x101C, 0x1000, 0x7000, 0x8000] ∧
      unhandled.stopped = some (.unresolvedSymbol .handleTrap) ∧
      ∃ done failing rest, endToEnd.references = done ++ failing :: rest ∧
        Reference.InPlace 0x1000 (onlyGrowth.withHandler none) done code unhandled.code := by
  intro code patched unhandled
  have hwords : ∀ patch ∈ endToEnd.internal,
      patch.site < UInt32.size ∧ patch.target < UInt32.size := by decide
  have hcomplete : patched.stopped = none := by decide
  have hearly : unhandled.stopped = some (.unresolvedSymbol .handleTrap) := by decide
  obtain ⟨-, -, hplaced, -⟩ :=
    references_lead_to_targets endToEnd 0x1000 onlyGrowth (some 0x7000) code hwords (by decide)
  obtain ⟨-, -, -, hbefore⟩ :=
    references_lead_to_targets endToEnd 0x1000 onlyGrowth none code hwords (by decide)
  obtain ⟨done, failing, rest, hsplit, -, -, hdone⟩ :=
    hbefore (hearly ▸ Option.some_ne_none _)
  exact ⟨hcomplete, (hplaced hcomplete).targets (by decide), by decide, hearly, done, failing, rest,
    hsplit, hdone⟩

end PatchPlan

end CompiledCode

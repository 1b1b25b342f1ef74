import CompiledCode.Block.Basic
import CompiledCode.Image.Codec
import CompiledCode.Settings.Basic

/-!
# Images

An image holds what it takes to create the code of a module again: unpatched
code and tables of the shared stubs and of one tier, how to patch them, and the
settings that they were compiled with. Its bytes are a version and the parts in
order; whatever follows them is ignored.
-/

namespace CompiledCode

/-- The saved code of a module. -/
structure Image where
  /-- The settings of the saved code. -/
  settings : Settings
  /-- The signatures of the imports. -/
  imports : List Nat
  /-- The name of the module. -/
  moduleName : String
  /-- The names of functions, by index. -/
  funcNames : List String
  /-- The stubs that every tier shares. -/
  sharedStubs : CompiledBlock
  /-- What to patch in the shared stubs. -/
  sharedPlan : PatchPlan
  /-- The saved tier. -/
  tier : CompiledBlock
  /-- What to patch in the saved tier. -/
  tierPlan : PatchPlan

namespace Codec

/-- Settings are the mode, the size of stub segments and two truth values. -/
def settings : Codec Settings :=
  ((oneOf CompileMode.all).pair (word64.pair (bool.pair bool))).record
    (fun s => (s.mode, s.stubSegmentSize, s.branchProtection, s.profiling))
    fun (mode, stubSegmentSize, branchProtection, profiling) =>
      { mode, stubSegmentSize, branchProtection, profiling }

/-- A code range is its kind, function, start, stop and tier entry. -/
def codeRange : Codec CodeRange :=
  ((oneOf RangeKind.all).pair
    (word32.optional.pair (word32.pair (word32.pair word32)))).record
    (fun range => (range.kind, range.func, range.start, range.stop, range.tierEntry))
    fun (kind, func, start, stop, tierEntry) => { kind, func, start, stop, tierEntry }

/-- A call site is its return offset, kind and bytecode offset. -/
def callSite : Codec CallSite :=
  (word32.pair ((oneOf CallKind.all).pair word32)).record
    (fun site => (site.returnOffset, site.kind, site.bytecode))
    fun (returnOffset, kind, bytecode) => { returnOffset, kind, bytecode }

/-- A trap site is its offset, trap and bytecode offset. -/
def trapSite : Codec TrapSite :=
  (word32.pair ((oneOf Trap.all).pair word32)).record
    (fun site => (site.offset, site.trap, site.bytecode))
    fun (offset, trap, bytecode) => { offset, trap, bytecode }

/-- A stack map is its offset, the size of the frame and the slots. -/
def stackMap : Codec StackMap :=
  (word32.pair (word32.pair word32.list)).record
    (fun map => (map.offset, map.frameWords, map.slots))
    fun (offset, frameWords, slots) => { offset, frameWords, slots }

/-- A try note is its start, stop, handler and frame depth. -/
def tryNote : Codec TryNote :=
  (word32.pair (word32.pair (word32.pair word32))).record
    (fun note => (note.start, note.stop, note.landingPad, note.frameDepth))
    fun (start, stop, landingPad, frameDepth) => { start, stop, landingPad, frameDepth }

/-- An entry of the unwind table is its offset and the way to unwind. -/
def unwindInfo : Codec UnwindInfo :=
  (word32.pair (oneOf UnwindHow.all)).record
    (fun info => (info.offset, info.how))
    fun (offset, how) => { offset, how }

/-- An export is its function, its signature and its eager entry. -/
def funcExport : Codec FuncExport :=
  (word32.pair (word32.pair word32.optional)).record
    (fun entry => (entry.func, entry.type, entry.eagerEntry))
    fun (func, type, eagerEntry) => { func, type, eagerEntry }

/-- A span of functions is its first function and the index after its last one. -/
def funcSpan : Codec FuncSpan :=
  (word32.pair word32).record (fun span => (span.first, span.stop)) fun (first, stop) =>
    { first, stop }

/-- The tables of a block are the span of functions and seven lists. -/
def codeTables : Codec CodeTables :=
  (funcSpan.pair (codeRange.list.pair (callSite.list.pair (trapSite.list.pair
    (stackMap.list.pair (tryNote.list.pair (unwindInfo.list.pair funcExport.list))))))).record
    (fun tables =>
      (tables.funcs, tables.ranges, tables.callSites, tables.trapSites, tables.stackMaps,
        tables.tryNotes, tables.unwindInfos, tables.exports))
    fun (funcs, ranges, callSites, trapSites, stackMaps, tryNotes, unwindInfos, exports) =>
      { funcs, ranges, callSites, trapSites, stackMaps, tryNotes, unwindInfos, exports }

/-- A compiled block is its kind, its code and its tables. -/
def compiledBlock : Codec CompiledBlock :=
  ((oneOf BlockKind.all).pair (bytes.pair codeTables)).record
    (fun block => (block.kind, block.code, block.tables))
    fun (kind, code, tables) => { kind, code, tables }

/-- An internal patch is its site, its target and its encoding. -/
def internalPatch : Codec InternalPatch :=
  (word32.pair (word32.pair (oneOf Encoding.all))).record
    (fun patch => (patch.site, patch.target, patch.encoding))
    fun (site, target, encoding) => { site, target, encoding }

/-- The sites of every symbol are a list of one list for each symbol. -/
def symbolSites : Codec (RuntimeSymbol → List Nat) :=
  word32.list.list.stored (fun sites => RuntimeSymbol.all.map sites) fun lists =>
    match PatchPlan.sitesOfLists lists with
    | .ok sites => .ok sites
    | .error _ => .error .value

/-- A plan is the place of the trap exit, the internal patches and the symbol sites. -/
def patchPlan : Codec PatchPlan :=
  (word32.pair (internalPatch.list.pair symbolSites)).record
    (fun plan => (plan.trapOffset, plan.internal, plan.symbolic))
    fun (trapOffset, internal, symbolic) => { trapOffset, internal, symbolic }

/-- An image is its parts in order. -/
def image : Codec Image :=
  (settings.pair (word32.list.pair (text.pair (text.list.pair
    (compiledBlock.pair (patchPlan.pair (compiledBlock.pair patchPlan))))))).record
    (fun image =>
      (image.settings, image.imports, image.moduleName, image.funcNames, image.sharedStubs,
        image.sharedPlan, image.tier, image.tierPlan))
    fun (settings, imports, moduleName, funcNames, sharedStubs, sharedPlan, tier, tierPlan) =>
      { settings, imports, moduleName, funcNames, sharedStubs, sharedPlan, tier, tierPlan }

end Codec

namespace Image

/-- The bytes of an image: the version and the parts. -/
def toBytes (image : Image) : Bytes :=
  imageVersion :: Codec.image.write image

/-- The image at the front of some bytes, which have to start with the version. -/
def ofBytes : Bytes → Except ImageFault Image
  | [] => .error .empty
  | version :: content =>
    if version ≠ imageVersion then .error (.version version.toNat)
    else
      match Codec.image.read content with
      | .ok (image, _) => .ok image
      | .error fault => .error (.wire fault)

end Image

end CompiledCode

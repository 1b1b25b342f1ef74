import CompiledCode.Bisection
import CompiledCode.Block.Basic
import CompiledCode.Block.Kind
import CompiledCode.Block.Listing
import CompiledCode.Block.Lookup
import CompiledCode.Bytes
import CompiledCode.Coverage
import CompiledCode.Dispatch
import CompiledCode.Fault
import CompiledCode.Image.Basic
import CompiledCode.Image.Check
import CompiledCode.Image.Codec
import CompiledCode.Image.Fault
import CompiledCode.Image.Number
import CompiledCode.Image.Store
import CompiledCode.Memory.Basic
import CompiledCode.Memory.Segment
import CompiledCode.ModuleCode.Blocks
import CompiledCode.ModuleCode.Create
import CompiledCode.ModuleCode.Install
import CompiledCode.ModuleCode.Query
import CompiledCode.ModuleCode.Report
import CompiledCode.ModuleCode.State
import CompiledCode.ModuleCode.Stubs
import CompiledCode.Op
import CompiledCode.Patch.Apply
import CompiledCode.Patch.Plan
import CompiledCode.Patch.Symbol
import CompiledCode.Proofs.Bisection
import CompiledCode.Proofs.Block
import CompiledCode.Proofs.Carried
import CompiledCode.Proofs.Carving
import CompiledCode.Proofs.Coverage
import CompiledCode.Proofs.Dispatch
import CompiledCode.Proofs.Enclosure
import CompiledCode.Proofs.Image.Check
import CompiledCode.Proofs.Image.Codec
import CompiledCode.Proofs.Image.Coverage
import CompiledCode.Proofs.Image.Delimited
import CompiledCode.Proofs.Image.Saved
import CompiledCode.Proofs.JitEntries
import CompiledCode.Proofs.Layout
import CompiledCode.Proofs.Memory
import CompiledCode.Proofs.ModuleCode.Batches
import CompiledCode.Proofs.ModuleCode.Blocks
import CompiledCode.Proofs.ModuleCode.Bodies
import CompiledCode.Proofs.ModuleCode.CallExclusion
import CompiledCode.Proofs.ModuleCode.CallSteps
import CompiledCode.Proofs.ModuleCode.CallUpgrade
import CompiledCode.Proofs.ModuleCode.Calls
import CompiledCode.Proofs.ModuleCode.Create
import CompiledCode.Proofs.ModuleCode.EntryAgreement
import CompiledCode.Proofs.ModuleCode.ExportStubs
import CompiledCode.Proofs.ModuleCode.Exports
import CompiledCode.Proofs.ModuleCode.Failure
import CompiledCode.Proofs.ModuleCode.Frugal
import CompiledCode.Proofs.ModuleCode.HousedStubs
import CompiledCode.Proofs.ModuleCode.Install
import CompiledCode.Proofs.ModuleCode.InstallOnce
import CompiledCode.Proofs.ModuleCode.Life
import CompiledCode.Proofs.ModuleCode.MissingSlots
import CompiledCode.Proofs.ModuleCode.Refusal
import CompiledCode.Proofs.ModuleCode.Slots
import CompiledCode.Proofs.ModuleCode.StubRules
import CompiledCode.Proofs.ModuleCode.Stubs
import CompiledCode.Proofs.ModuleCode.Targets
import CompiledCode.Proofs.Op
import CompiledCode.Proofs.Patch
import CompiledCode.Proofs.Process.Blocks
import CompiledCode.Proofs.Process.Calls
import CompiledCode.Proofs.Process.Failure
import CompiledCode.Proofs.Process.Forsaken
import CompiledCode.Proofs.Process.FunctionRanges
import CompiledCode.Proofs.Process.InStep
import CompiledCode.Proofs.Process.Install
import CompiledCode.Proofs.Process.Load
import CompiledCode.Proofs.Process.Loaded
import CompiledCode.Proofs.Process.Mirror
import CompiledCode.Proofs.Process.Paged
import CompiledCode.Proofs.Process.Pieces
import CompiledCode.Proofs.Process.Publication
import CompiledCode.Proofs.Process.Refusals
import CompiledCode.Proofs.Process.Reload
import CompiledCode.Proofs.Process.Run
import CompiledCode.Proofs.Process.Saved
import CompiledCode.Proofs.Process.Sealed
import CompiledCode.Proofs.Process.Serving
import CompiledCode.Proofs.Process.StubRoom
import CompiledCode.Proofs.Process.Stubs
import CompiledCode.Proofs.Process.TierQueries
import CompiledCode.Proofs.Process.Tiers
import CompiledCode.Proofs.Process.Traps
import CompiledCode.Proofs.Protection
import CompiledCode.Proofs.References
import CompiledCode.Proofs.Refusals
import CompiledCode.Proofs.RefusedEntries
import CompiledCode.Proofs.RegionMap.Entries
import CompiledCode.Proofs.RegionMap.Interleaving
import CompiledCode.Proofs.RegionMap.Intervals
import CompiledCode.Proofs.RegionMap.Probe
import CompiledCode.Proofs.RegionMap.Snapshot
import CompiledCode.Proofs.RegionMap.Update
import CompiledCode.Proofs.Relocation
import CompiledCode.Proofs.ReturnAddresses
import CompiledCode.Proofs.Scans
import CompiledCode.Proofs.Shifting
import CompiledCode.Proofs.Sites
import CompiledCode.Proofs.SlotAddresses
import CompiledCode.Proofs.Stubs
import CompiledCode.Proofs.Tables
import CompiledCode.RegionMap.Basic
import CompiledCode.RegionMap.Entries
import CompiledCode.RegionMap.Protocol
import CompiledCode.Settings.Basic
import CompiledCode.Settings.Document
import CompiledCode.Settings.DocumentText
import CompiledCode.Stubs.Basic
import CompiledCode.Stubs.Layout
import CompiledCode.Tables.Basic
import CompiledCode.Tables.Check
import CompiledCode.Tables.Fault
import CompiledCode.Tables.Range
import CompiledCode.Tables.Search
import CompiledCode.Text.Hex
import CompiledCode.Text.Quoted

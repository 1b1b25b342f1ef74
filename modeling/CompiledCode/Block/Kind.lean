/-!
# Tiers and kinds of blocks

A block of code is one complete tier of a module, the stubs shared by all
tiers, or a batch of entry stubs made on demand.
-/

namespace CompiledCode

/-- A compilation tier. -/
inductive Tier where
  /-- Quick to compile, slow to run. -/
  | baseline
  /-- Slow to compile, quick to run. -/
  | optimized
  deriving DecidableEq, Repr

namespace Tier

/-- Both tiers, in enumeration order. -/
def all : List Tier := [baseline, optimized]

/-- The name of a tier in messages. -/
def name : Tier → String
  | baseline => "Baseline"
  | optimized => "Optimized"

end Tier

/-- What a block of code holds. -/
inductive BlockKind where
  /-- Stubs that every tier shares: import exits, the trap exit and the like. -/
  | sharedStubs
  /-- Every function, compiled by the baseline compiler. -/
  | baselineTier
  /-- Every function, compiled by the optimizing compiler. -/
  | optimizedTier
  /-- Entry stubs made on demand. -/
  | lazyStubs
  deriving DecidableEq, Repr

namespace BlockKind

/-- Every kind of block, in enumeration order. -/
def all : List BlockKind := [sharedStubs, baselineTier, optimizedTier, lazyStubs]

/-- The name of a kind of block in messages. -/
def name : BlockKind → String
  | sharedStubs => "SharedStubs"
  | baselineTier => "BaselineTier"
  | optimizedTier => "OptimizedTier"
  | lazyStubs => "LazyStubs"

/-- The tier that a kind of block holds, for tier blocks. -/
def tier? : BlockKind → Option Tier
  | baselineTier => some .baseline
  | optimizedTier => some .optimized
  | sharedStubs => none
  | lazyStubs => none

end BlockKind

end CompiledCode

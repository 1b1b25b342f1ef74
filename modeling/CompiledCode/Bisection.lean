/-!
# Searching sorted tables by halving

A window of candidates starts as the whole table. Each round asks the candidate
in the middle whether to move on, and keeps the half that the answer points to;
the number of rounds depends on the length of the table alone. On a table that
is sorted for the question asked the result is the expected one; on any other
table it is still a definite function of the answers given.
-/

namespace CompiledCode

/-- Narrows a window of `size` candidates from `base` on to one candidate. -/
def narrow (moveOn : Nat → Bool) : (rounds base size : Nat) → Nat
  | 0, base, _ => base
  | rounds + 1, base, size =>
    if size ≤ 1 then base
    else
      let half := size / 2
      narrow moveOn rounds (if moveOn (base + half) then base + half else base) (size - half)

/-- The number of leading entries for which `holds` is true, found by halving. -/
def partitionPoint {α : Type} (holds : α → Bool) (entries : List α) : Nat :=
  let asks (i : Nat) : Bool := entries[i]?.any holds
  let base := narrow asks entries.length 0 entries.length
  if asks base then base + 1 else base

/-- Where a key stands in a table sorted by `keyOf`, or where it would have to be inserted. -/
inductive Position where
  /-- The entry at this index has the key. -/
  | found (index : Nat)
  /-- No entry has the key; inserting it here keeps the table sorted. -/
  | vacant (index : Nat)
  deriving DecidableEq, Repr

/-- Looks a key up by halving. -/
def searchKey {α : Type} (keyOf : α → Nat) (entries : List α) (key : Nat) : Position :=
  let base := narrow (fun i => entries[i]?.any (keyOf · ≤ key)) entries.length 0 entries.length
  match entries[base]? with
  | none => .vacant base
  | some entry =>
    if keyOf entry = key then .found base
    else if keyOf entry < key then .vacant (base + 1)
    else .vacant base

/-- The entry that has a key, with its index. -/
def findKey? {α : Type} (keyOf : α → Nat) (entries : List α) (key : Nat) : Option (Nat × α) :=
  match searchKey keyOf entries key with
  | .found index => entries[index]?.map (index, ·)
  | .vacant _ => none

/-- Whether every entry stands in the given relation to the next one. -/
def chained {α : Type} (related : α → α → Bool) : List α → Bool
  | [] => true
  | [_] => true
  | a :: b :: rest => related a b && chained related (b :: rest)

end CompiledCode

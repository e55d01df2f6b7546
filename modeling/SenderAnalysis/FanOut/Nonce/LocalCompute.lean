import SenderAnalysis.EntrySources.Observation
import SenderAnalysis.Foundations.OrderedMaps

/-!
# Computing the next durable nonce locally

A transaction that lands in a slot advances its nonce to a hash of the last entry
hash of the slot before. `SlotHashCache` keeps, for the slots of a rolling window,
the hash of the last entry that was recorded for the slot: every entry overwrites
the one before it. `nextNonceForLandedSlot` walks back from the slot of the landing
to the first slot with a recorded hash.

The hash function is that of the ledger, from outside the repository, and is a
parameter here: it takes the list of byte strings it is applied to.
-/

set_option autoImplicit false

namespace SenderAnalysis

open Std OrderedMap

/-- A hash function on the concatenation of byte strings. -/
abbrev Hashv := List (List UInt8) → Hash

/-- The bytes of "DURABLE_NONCE". -/
def durableNonceHashPrefix : List UInt8 := [68, 85, 82, 65, 66, 76, 69, 95, 78, 79, 78, 67, 69]

/-- The next value of a nonce. -/
def computeNextDurableNonce (hashv : Hashv) (recentBlockhash : Hash) : Hash :=
  hashv [durableNonceHashPrefix, recentBlockhash.toList]

/-- The last entry hash of every slot of a rolling window. -/
structure SlotHashCache where
  inner : ExtTreeMap Nat Hash := ∅
  window : Nat

namespace SlotHashCache

/-- An empty cache. -/
def new (window : Nat) : SlotHashCache where
  window := window

/-- Record an entry's hash for its slot; the last write wins. -/
def recordEntry (cache : SlotHashCache) (slot : Nat) (entryHash : Hash) : SlotHashCache :=
  let inner := cache.inner.insert slot entryHash
  match lastKey inner with
  | some maxSlot =>
      if maxSlot > cache.window then
        { cache with inner := popBelow inner (maxSlot - cache.window) }
      else { cache with inner := inner }
  | none => { cache with inner := inner }

/-- Record the hash a terminal event reports. -/
def recordSlotComplete (cache : SlotHashCache) (slot : Nat) (lastEntryHash : Hash) :
    SlotHashCache :=
  cache.recordEntry slot lastEntryHash

/-- The next value of a nonce whose transaction landed in a slot: the source slot,
its hash and the value. -/
def nextNonceForLandedSlot (hashv : Hashv) (cache : SlotHashCache) (landedSlot maxLookback : Nat) :
    Option (Nat × Hash × Hash) :=
  lookBack 1
where
  /-- Look at the slot `back` slots before the landing, and then further back. -/
  lookBack (back : Nat) : Option (Nat × Hash × Hash) :=
    if _within : back ≤ maxLookback then
      if landedSlot < back then none
      else
        match cache.inner[landedSlot - back]? with
        | some hash => some (landedSlot - back, hash, computeNextDurableNonce hashv hash)
        | none => lookBack (back + 1)
    else none
  termination_by maxLookback + 1 - back

end SlotHashCache

end SenderAnalysis

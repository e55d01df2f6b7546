import SenderAnalysis.EntrySources.Observation
import SenderAnalysis.Foundations.Effects
import SenderAnalysis.Foundations.HashTables
import SenderAnalysis.Foundations.OrderedMaps

/-!
# The entry merger

The merger receives the observations of both sources and hands on the first
sighting of every entry, where an entry is a slot and a hash. A second sighting
by the other source is absorbed and only its delay is counted.

The merger remembers an entry until its slot is more than `dedupWindowSlots`
behind the highest slot seen. Next to the table of entries it keeps, for every
slot, the hashes of the slot's entries, so that an eviction touches the entries
of the expired slots only.
-/

set_option autoImplicit false

namespace SenderAnalysis

open Std

/-- How many slots of dedup history are retained. -/
def dedupWindowSlots : Nat := 200

/-- An entry handed on by the merger, with the data of its first sighting. -/
structure MergedEntry where
  observation : EntryObservation
  firstSeenSource : SourceKind
deriving DecidableEq, Repr

namespace Merger

/-- The counters of the merger. Messages that a full output channel rejects are
counted by the channel's answer and not here. -/
inductive Counter where
  | ssReceived
  | ysReceived
  | ssFirst
  | ysFirst
  | confirmedByBoth
  | confirmLatencySumNs
  | confirmLatencyMinNs
  | confirmLatencyMaxNs
  | duplicates
deriving DecidableEq, Repr

/-- What the merger does to its counters and its output channel. -/
abbrev MergerEffect := Effect Counter MergedEntry

/-- What is remembered of an entry. -/
inductive DedupState where
  | primary (firstSource : SourceKind) (firstSeenAt : Instant)
  | confirmed
deriving DecidableEq, Repr

/-- The private state of the merger. -/
structure State where
  state : HashTable (Nat × Hash) DedupState := .empty
  slotIndex : ExtTreeMap Nat (List Hash) := ∅
  maxSlot : Nat := 0

/-- Count one confirmation and its delay. -/
def recordConfirmLatency (deltaNs : Nat) : List MergerEffect :=
  [.fetchAdd .confirmedByBoth 1, .fetchAdd .confirmLatencySumNs deltaNs,
    .fetchMin .confirmLatencyMinNs deltaNs, .fetchMax .confirmLatencyMaxNs deltaNs]

/-- Count a first sighting for its source. -/
def countFirst : SourceKind → MergerEffect
  | .shredStream => .fetchAdd .ssFirst 1
  | .yellowstone => .fetchAdd .ysFirst 1

/-- Drop one expired slot and its entries. -/
def evictSlot (merger : State) (slot : Nat) : State :=
  match merger.slotIndex[slot]? with
  | none => merger
  | some hashes =>
      { merger with
        state := hashes.foldl (fun table hash => table.remove (slot, hash)) merger.state
        slotIndex := merger.slotIndex.erase slot }

/-- Raise the highest slot, and drop what falls out of the window. -/
def advanceMaxSlot (merger : State) (slot : Nat) : State :=
  if slot > merger.maxSlot then
    let merger := { merger with maxSlot := slot }
    if merger.maxSlot > dedupWindowSlots then
      let cutoff := merger.maxSlot - dedupWindowSlots
      (merger.slotIndex.keys.takeWhile (· < cutoff)).foldl evictSlot merger
    else merger
  else merger

/-- Look an observation up and hand it on when it is the first of its entry. -/
def deduplicate (merger : State) (observation : EntryObservation) (source : SourceKind) :
    State × List MergerEffect :=
  let slot := observation.slot
  let hash := observation.entryHash
  match merger.state.get (slot, hash) with
  | none =>
      ({ merger with
          state := merger.state.insert (slot, hash) (.primary source observation.observedAt)
          slotIndex := merger.slotIndex.insert slot
            ((merger.slotIndex[slot]?).getD [] ++ [hash]) },
        [countFirst source, .trySend ⟨observation, source⟩])
  | some (.primary firstSource firstSeenAt) =>
      if firstSource ≠ source then
        ({ merger with state := merger.state.insert (slot, hash) .confirmed },
          recordConfirmLatency
            (min (saturatingDurationSince observation.observedAt firstSeenAt) (2 ^ 64 - 1)))
      else (merger, [.fetchAdd .duplicates 1])
  | some .confirmed => (merger, [.fetchAdd .duplicates 1])

/-- Process one observation. -/
def process (merger : State) (observation : EntryObservation) (source : SourceKind) :
    State × List MergerEffect :=
  let deduplicated := deduplicate merger observation source
  (advanceMaxSlot deduplicated.1 observation.slot, deduplicated.2)

/-- An observation and the channel it came in on. -/
abbrev Delivery := EntryObservation × SourceKind

/-- Count an observation for the channel it came in on. -/
def countReceived : SourceKind → MergerEffect
  | .shredStream => .fetchAdd .ssReceived 1
  | .yellowstone => .fetchAdd .ysReceived 1

/-- One iteration of the merger's loop. -/
def step (merger : State) (delivery : Delivery) : State × List MergerEffect :=
  let processed := process merger delivery.1 delivery.2
  (processed.1, countReceived delivery.2 :: processed.2)

/-- The merger's loop on the deliveries its `select` picks, in that order. -/
def runLoop (deliveries : List Delivery) : State × List MergerEffect :=
  runAll step {} deliveries

/-- The entries handed on for a sequence of deliveries. -/
def merged (deliveries : List Delivery) : List MergedEntry := sent (runLoop deliveries).2

end Merger

end SenderAnalysis

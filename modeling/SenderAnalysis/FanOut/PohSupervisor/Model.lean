import SenderAnalysis.FanOut.Merger.Model

/-!
# The PoH supervisor

The supervisor turns the arrival order of the merged entries into the order of
the ledger. For every slot it keeps a cursor, the next expected entry index, and
a buffer of the entries above the cursor. An entry at the cursor is emitted, and
with it the buffered entries that follow without a gap. A sweep steps the cursor
over a gap when the first buffered entry has waited for `entryTimeout`, with an
explicit `missing` event for every index of the gap. A slot that lies
`slotSealLagSlots` behind the newest slot is sealed: its buffer is flushed, with
`missing` events for the gaps, and one terminal event tells whether tick 64 was
reached. Sealed slots are dropped ten slots later.

The functions act on the state of one slot (`PohSlot`) where the source does, and
on the map of all slots in `process`, `sealSlot`, `sweep` and `shutdown`. Loops
of the source that pop the buffer are `runWhile` loops with the source's body;
`loopBound` iterations are enough for each of them.
-/

set_option autoImplicit false

namespace SenderAnalysis

open Std OrderedMap

/-- How many ticks a slot has. -/
def ticksPerSlot : Nat := 64

structure OrderedEntry where
  slot : Nat
  entryIndex : UInt32
  tickIdxInSlot : Nat
  cumulativeHashesInSlot : Nat
  observation : EntryObservation
  wasReordered : Bool
  waitDurationUs : Nat
  tickUncertain : Bool
deriving DecidableEq, Repr

structure OrderedMissing where
  slot : Nat
  entryIndex : UInt32
  waitedForUs : Nat
deriving DecidableEq, Repr

structure OrderedSlotComplete where
  slot : Nat
  totalEntries : Nat
  lastEntryHash : Hash
  lastTickObserved : Nat
  missingCount : Nat
deriving DecidableEq, Repr

structure OrderedSlotIncomplete where
  slot : Nat
  lastSeenIndex : UInt32
  lastEntryHash : Hash
  lastTickObserved : Nat
  missingCount : Nat
deriving DecidableEq, Repr

/-- The events of the ordered stream. -/
inductive OrderedEvent where
  | entry (entry : OrderedEntry)
  | missing (missing : OrderedMissing)
  | slotComplete (complete : OrderedSlotComplete)
  | slotIncomplete (incomplete : OrderedSlotIncomplete)
deriving DecidableEq, Repr

/-- The slot an event is about. -/
def OrderedEvent.slot : OrderedEvent → Nat
  | .entry e => e.slot
  | .missing m => m.slot
  | .slotComplete c => c.slot
  | .slotIncomplete i => i.slot

/-- The event that ends a slot. -/
def OrderedEvent.isTerminal : OrderedEvent → Bool
  | .slotComplete _ | .slotIncomplete _ => true
  | .entry _ | .missing _ => false

/-- The index an entry or a missing marker is about. -/
def OrderedEvent.index? : OrderedEvent → Option UInt32
  | .entry e => some e.entryIndex
  | .missing m => some m.entryIndex
  | .slotComplete _ | .slotIncomplete _ => none

/-- The entry an event carries. -/
def OrderedEvent.ordered? : OrderedEvent → Option OrderedEntry
  | .entry e => some e
  | .missing _ | .slotComplete _ | .slotIncomplete _ => none

/-- The last entry hash a terminal event reports. -/
def OrderedEvent.lastEntryHash? : OrderedEvent → Option Hash
  | .slotComplete c => some c.lastEntryHash
  | .slotIncomplete i => some i.lastEntryHash
  | .entry _ | .missing _ => none

/-- The number of ticks a terminal event reports. -/
def OrderedEvent.lastTick? : OrderedEvent → Option Nat
  | .slotComplete c => some c.lastTickObserved
  | .slotIncomplete i => some i.lastTickObserved
  | .entry _ | .missing _ => none

namespace PohSupervisor

/-- The counters of the supervisor. Events that a full output channel rejects are
counted by the channel's answer and not here. -/
inductive Counter where
  | entriesEmittedImmediate
  | entriesEmittedReordered
  | entriesMissingTimeout
  | slotsComplete
  | slotsIncomplete
  | slotsWithMissing
  | reorderWaitSumUs
  | reorderWaitMaxUs
  | pendingPeakSize
  | pendingDropsCapacity
  | duplicatesDropped
  | lateArrivalsAfterSeal
deriving DecidableEq, Repr

/-- What the supervisor does to its counters and its output channel. -/
abbrev SupervisorEffect := Effect Counter OrderedEvent

structure PendingEntry where
  merged : MergedEntry
  bufferedAt : Instant
deriving DecidableEq, Repr

/-- The state of one slot. -/
structure PohSlot where
  nextExpectedIdx : UInt32 := 0
  pending : ExtTreeMap UInt32 PendingEntry := ∅
  cumulativeHashes : Nat := 0
  hashesSinceLastTick : Nat := 0
  tickIdx : Nat := 0
  lastEntryHash : Option Hash := none
  lastEntryIndex : UInt32 := 0
  hasMissing : Bool := false
  missingCount : Nat := 0
  totalEmitted : Nat := 0
  lastEmitAt : Option Instant := none
  isSealed : Bool := false

structure Config where
  entryTimeout : Duration
  slotSealLagSlots : Nat
  maxPendingPerSlot : Nat
  tickCheckInterval : Duration
deriving DecidableEq, Repr

/-! ## Emitting events of one slot -/

/-- A wait in microseconds, as a 32-bit number. -/
def waitMicros (wait : Duration) : Nat := min (wait / 1000) (2 ^ 32 - 1)

/-- The tick index after an entry: a tick counts until tick 64 is reached. -/
def countTick (tickIdx : Nat) (observation : EntryObservation) : Nat :=
  if observation.txCount = 0 ∧ tickIdx < ticksPerSlot then saturatingAdd 8 tickIdx 1 else tickIdx

/-- Emit an entry and move the counts of the slot. The cursor is moved by the
caller. -/
def emitEntry (slot : PohSlot) (merged : MergedEntry) (now : Instant) (wasReordered : Bool)
    (waitUs : Nat) : PohSlot × List SupervisorEffect :=
  let obs := merged.observation
  let sinceLastTick := saturatingAdd 64 slot.hashesSinceLastTick obs.numHashes
  let slot := { slot with
    cumulativeHashes := saturatingAdd 64 slot.cumulativeHashes obs.numHashes
    hashesSinceLastTick :=
      if obs.txCount = 0 ∧ slot.tickIdx < ticksPerSlot then 0 else sinceLastTick
    tickIdx := countTick slot.tickIdx obs
    lastEntryHash := some obs.entryHash
    lastEntryIndex := obs.entryIndex
    lastEmitAt := some now
    totalEmitted := saturatingAdd 32 slot.totalEmitted 1 }
  let event := OrderedEvent.entry {
    slot := obs.slot
    entryIndex := obs.entryIndex
    tickIdxInSlot := slot.tickIdx
    cumulativeHashesInSlot := slot.cumulativeHashes
    observation := obs
    wasReordered := wasReordered
    waitDurationUs := waitUs
    tickUncertain := slot.hasMissing }
  let counts : List SupervisorEffect :=
    if wasReordered then
      [.fetchAdd .entriesEmittedReordered 1, .fetchAdd .reorderWaitSumUs waitUs,
        .fetchMax .reorderWaitMaxUs waitUs]
    else [.fetchAdd .entriesEmittedImmediate 1]
  (slot, counts ++ [.trySend event])

/-- Step the cursor over an index nobody delivered. -/
def emitMissing (cfg : Config) (slotKey : Nat) (now : Instant) (slot : PohSlot) :
    PohSlot × List SupervisorEffect :=
  let waitedForUs :=
    match firstEntry slot.pending with
    | some (_, entry) => waitMicros (saturatingDurationSince now entry.bufferedAt)
    | none => waitMicros cfg.entryTimeout
  let event := OrderedEvent.missing {
    slot := slotKey
    entryIndex := slot.nextExpectedIdx
    waitedForUs := waitedForUs }
  ({ slot with
      missingCount := saturatingAdd 32 slot.missingCount 1
      hasMissing := true
      nextExpectedIdx := slot.nextExpectedIdx + 1 },
    [.fetchAdd .entriesMissingTimeout 1, .trySend event])

/-- Pop the first buffered entry, emit it and move the cursor. -/
def emitPending (now : Instant) (slot : PohSlot) (first : UInt32) (entry : PendingEntry) :
    PohSlot × List SupervisorEffect :=
  let popped := { slot with pending := slot.pending.erase first }
  let wait := waitMicros (saturatingDurationSince now entry.bufferedAt)
  let emitted := emitEntry popped entry.merged now true wait
  ({ emitted.1 with nextExpectedIdx := emitted.1.nextExpectedIdx + 1 }, emitted.2)

/-! ## The loops over the buffer of one slot -/

/-- A bound on the iterations of every loop over the buffer. -/
def loopBound (slot : PohSlot) : Nat := (slot.pending.size + 1) * 2 ^ 32

/-- Emit the first buffered entry if it is at the cursor. -/
def drainBody (now : Instant) (slot : PohSlot) : Option (PohSlot × List SupervisorEffect) :=
  match firstEntry slot.pending with
  | some (first, entry) =>
      if first ≠ slot.nextExpectedIdx then none else some (emitPending now slot first entry)
  | none => none

/-- Emit the buffered entries that follow the cursor without a gap. -/
def drainConsecutivePending (slot : PohSlot) (now : Instant) : PohSlot × List SupervisorEffect :=
  runWhile (drainBody now) (loopBound slot) slot

/-- The first buffered entry is emitted at the cursor, and above the cursor it
opens the gap once it has waited long enough. -/
def gapBody (cfg : Config) (slotKey : Nat) (now : Instant) (slot : PohSlot) :
    Option (PohSlot × List SupervisorEffect) :=
  match firstEntry slot.pending with
  | some (first, entry) =>
      if first = slot.nextExpectedIdx then some (emitPending now slot first entry)
      else if saturatingDurationSince now entry.bufferedAt ≥ cfg.entryTimeout then
        some (emitMissing cfg slotKey now slot)
      else none
  | none => none

/-- Phase A of a sweep for one slot: step over the gaps that timed out. -/
def advanceGaps (cfg : Config) (now : Instant) (slotKey : Nat) (slot : PohSlot) :
    PohSlot × List SupervisorEffect :=
  if slot.isSealed then (slot, [])
  else runWhile (gapBody cfg slotKey now) (loopBound slot) slot

/-- Emit the first buffered entry at the cursor, or the cursor as missing, up to
the last buffered index. -/
def flushBody (cfg : Config) (slotKey : Nat) (now : Instant) (maxIdx : UInt32) (slot : PohSlot) :
    Option (PohSlot × List SupervisorEffect) :=
  if slot.nextExpectedIdx ≤ maxIdx then
    match firstEntry slot.pending with
    | some (first, entry) =>
        if first = slot.nextExpectedIdx then some (emitPending now slot first entry)
        else some (emitMissing cfg slotKey now slot)
    | none => none
  else none

/-- Emit everything that is buffered, in order. -/
def flushPending (cfg : Config) (slotKey : Nat) (now : Instant) (slot : PohSlot) :
    PohSlot × List SupervisorEffect :=
  match lastKey slot.pending with
  | some maxIdx => runWhile (flushBody cfg slotKey now maxIdx) (loopBound slot) slot
  | none => (slot, [])

/-! ## One slot -/

/-- The terminal event of a slot. -/
def terminalEvent (slotKey : Nat) (slot : PohSlot) : OrderedEvent :=
  let lastHash := slot.lastEntryHash.getD Hash.default
  if slot.tickIdx ≥ ticksPerSlot then
    .slotComplete {
      slot := slotKey
      totalEntries := slot.totalEmitted
      lastEntryHash := lastHash
      lastTickObserved := slot.tickIdx
      missingCount := slot.missingCount }
  else
    .slotIncomplete {
      slot := slotKey
      lastSeenIndex := slot.lastEntryIndex
      lastEntryHash := lastHash
      lastTickObserved := slot.tickIdx
      missingCount := slot.missingCount }

/-- Flush the buffer and end the slot, unless it is sealed already. -/
def sealState (cfg : Config) (now : Instant) (slotKey : Nat) (slot : PohSlot) :
    PohSlot × List SupervisorEffect :=
  if slot.isSealed then (slot, [])
  else
    let flushed := flushPending cfg slotKey now slot
    let withMissing : List SupervisorEffect :=
      if flushed.1.hasMissing then [.fetchAdd .slotsWithMissing 1] else []
    let ended : List SupervisorEffect :=
      if flushed.1.tickIdx ≥ ticksPerSlot then [.fetchAdd .slotsComplete 1]
      else [.fetchAdd .slotsIncomplete 1]
    ({ flushed.1 with isSealed := true },
      flushed.2 ++ (withMissing ++ (ended ++ [.trySend (terminalEvent slotKey flushed.1)])))

/-- Process an entry of a slot whose state exists. -/
def processSlot (cfg : Config) (slot : PohSlot) (merged : MergedEntry) (now : Instant) :
    PohSlot × List SupervisorEffect :=
  if slot.isSealed then (slot, [.fetchAdd .lateArrivalsAfterSeal 1])
  else
    let slot := { slot with lastEmitAt := some (slot.lastEmitAt.getD now) }
    let idx := merged.observation.entryIndex
    if idx = slot.nextExpectedIdx then
      let emitted := emitEntry slot merged now false 0
      let advanced := { emitted.1 with nextExpectedIdx := emitted.1.nextExpectedIdx + 1 }
      let drained := drainConsecutivePending advanced now
      (drained.1, emitted.2 ++ drained.2)
    else if idx > slot.nextExpectedIdx then
      if slot.pending.size ≥ cfg.maxPendingPerSlot then
        (slot, [.fetchAdd .pendingDropsCapacity 1])
      else
        let pending := slot.pending.insert idx ⟨merged, now⟩
        ({ slot with pending := pending }, [.fetchMax .pendingPeakSize pending.size])
    else
      -- A late tick still counts, although no event carries it.
      ({ slot with tickIdx := countTick slot.tickIdx merged.observation },
        [.fetchAdd .duplicatesDropped 1])

/-! ## All slots -/

/-- The state of the supervisor's thread: the slots and the highest slot seen. -/
structure State where
  slots : ExtTreeMap Nat PohSlot := ∅
  maxSlot : Nat := 0

/-- Process an entry, with a fresh state for a slot without one. -/
def process (cfg : Config) (slots : ExtTreeMap Nat PohSlot) (merged : MergedEntry)
    (now : Instant) : ExtTreeMap Nat PohSlot × List SupervisorEffect :=
  let slotKey := merged.observation.slot
  let processed := processSlot cfg (slots[slotKey]?.getD {}) merged now
  (slots.insert slotKey processed.1, processed.2)

/-- Seal one slot. -/
def sealSlot (cfg : Config) (now : Instant) :
    ExtTreeMap Nat PohSlot → Nat → ExtTreeMap Nat PohSlot × List SupervisorEffect :=
  updateAt (sealState cfg now)

/-- A slot far enough behind the newest slot is due for sealing. -/
def due (cfg : Config) (maxSlot slotKey : Nat) : Bool :=
  cfg.slotSealLagSlots ≤ maxSlot && slotKey ≤ maxSlot - cfg.slotSealLagSlots

/-- Phase A of a sweep: step over the gaps that timed out, slot by slot. -/
def sweepGaps (cfg : Config) (now : Instant) (slots : ExtTreeMap Nat PohSlot) :
    ExtTreeMap Nat PohSlot × List SupervisorEffect :=
  runAll (updateAt (advanceGaps cfg now)) slots slots.keys

/-- Phase B of a sweep: seal the slots that are due. -/
def sweepSeal (cfg : Config) (maxSlot : Nat) (now : Instant) (slots : ExtTreeMap Nat PohSlot) :
    ExtTreeMap Nat PohSlot × List SupervisorEffect :=
  let toSeal := (slots.toList.filter fun entry =>
    due cfg maxSlot entry.1 && !entry.2.isSealed).map Prod.fst
  runAll (sealSlot cfg now) slots toSeal

/-- Phase C of a sweep: drop the sealed slots that are well behind. -/
def sweepDrop (cfg : Config) (maxSlot : Nat) (slots : ExtTreeMap Nat PohSlot) :
    ExtTreeMap Nat PohSlot :=
  let dropCutoff := maxSlot - (cfg.slotSealLagSlots + 10)
  slots.filter fun slotKey slot => slotKey > dropCutoff || !slot.isSealed

/-- One sweep over all slots. -/
def sweep (cfg : Config) (state : State) (now : Instant) : State × List SupervisorEffect :=
  let advanced := sweepGaps cfg now state.slots
  let ended := sweepSeal cfg state.maxSlot now advanced.1
  ({ state with slots := sweepDrop cfg state.maxSlot ended.1 }, advanced.2 ++ ended.2)

/-- Receive an entry from the merger. -/
def receive (cfg : Config) (state : State) (merged : MergedEntry) (now : Instant) :
    State × List SupervisorEffect :=
  let processed := process cfg state.slots merged now
  ({ slots := processed.1, maxSlot := max state.maxSlot merged.observation.slot }, processed.2)

/-- The last flush: one more sweep, then every slot left is sealed. -/
def shutdown (cfg : Config) (state : State) (now : Instant) : State × List SupervisorEffect :=
  let swept := sweep cfg state now
  let ended := runAll (sealSlot cfg now) swept.1.slots swept.1.slots.keys
  ({ swept.1 with slots := ended.1 }, swept.2 ++ ended.2)

/-! ## Runs -/

/-- What the supervisor's thread does next. -/
inductive Input where
  | receive (merged : MergedEntry) (now : Instant)
  | sweep (now : Instant)
  | shutdown (now : Instant)
deriving DecidableEq, Repr

/-- One input. -/
def step (cfg : Config) (state : State) : Input → State × List SupervisorEffect
  | .receive merged now => receive cfg state merged now
  | .sweep now => sweep cfg state now
  | .shutdown now => shutdown cfg state now

/-- A run from the initial state. -/
def run (cfg : Config) (inputs : List Input) : State × List SupervisorEffect :=
  runAll (step cfg) {} inputs

/-- The events of a run, in the order they are offered to the output channel. -/
def events (cfg : Config) (inputs : List Input) : List OrderedEvent := sent (run cfg inputs).2

/-- One iteration of the thread's loop: the entry received, if any, and the
instants read for it and for the sweep. -/
structure Iteration where
  received : Option (MergedEntry × Instant)
  now : Instant
deriving DecidableEq, Repr

/-- The inputs an iteration amounts to: the entry, and a sweep when the check
interval has passed since the last one. -/
def iterationInputs (cfg : Config) (lastSweep : Instant) (iteration : Iteration) : List Input :=
  (iteration.received.map fun entry => Input.receive entry.1 entry.2).toList ++
    if saturatingDurationSince iteration.now lastSweep ≥ cfg.tickCheckInterval then
      [.sweep iteration.now]
    else []

/-- The inputs of the whole loop, up to the last flush. -/
def loopInputs (cfg : Config) : Instant → List Iteration → Instant → List Input
  | _, [], stoppedAt => [.shutdown stoppedAt]
  | lastSweep, iteration :: rest, stoppedAt =>
      iterationInputs cfg lastSweep iteration ++
        loopInputs cfg
          (if saturatingDurationSince iteration.now lastSweep ≥ cfg.tickCheckInterval then
            iteration.now else lastSweep)
          rest stoppedAt

/-- The supervisor's loop, started at an instant and stopped at another. -/
def runLoop (cfg : Config) (startedAt : Instant) (iterations : List Iteration)
    (stoppedAt : Instant) : State × List SupervisorEffect :=
  run cfg (loopInputs cfg startedAt iterations stoppedAt)

end PohSupervisor

end SenderAnalysis

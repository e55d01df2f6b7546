import SenderAnalysis.Foundations.Effects
import SenderAnalysis.TickTriggerBench.Finalizer.Model
import SenderAnalysis.TickTriggerBench.TxPool

/-!
# The observer of the single-sender bench

The observer counts the hashes of every slot as its entries come in. An entry without
transactions that completes 62,500 hashes since the last tick is the next tick of its slot.
When the schedule names the tick, the transaction pooled for it is sent. The slot that is
seen first is skipped, because it may have begun before the first entry.

The pool is shared: between two entries, other threads insert transactions and take them
out. The signatures that are waited for are shared too, and may change from one look-up to
the next: what each look-up finds is given with the entry.
-/

set_option autoImplicit false

namespace SenderAnalysis.TickTriggerBench

/-- The hashes between two ticks. -/
def hashesPerTick : Nat := 62500

/-- What the observer counts in a slot. -/
structure SlotState where
  tickIdx : UInt8 := 0
  hashCount : Nat := 0
  cumulativeHashesInSlot : Nat := 0
  seenEntries : List Hash := []
deriving DecidableEq, Repr

structure TickEvent where
  observedAt : Instant
  slot : Nat
  tickIdx : UInt8
  numHashes : Nat
deriving DecidableEq, Repr

structure SendCommand where
  tx : PreSignedTx
  scheduleSlot : Nat
  scheduleTick : UInt8
  triggerObservedAt : Instant
deriving DecidableEq, Repr

namespace Observer

/-- What the observer offers to its three queues. -/
inductive Output where
  | tick (ev : TickEvent)
  | send (cmd : SendCommand)
  | matched (ev : MatchEvent)
deriving DecidableEq, Repr

/-- The counters of the observer. What a full queue refuses is counted there. -/
inductive Counter where
  | poolEmpty
  | forkTickOverflow
  | scheduleContainsCalls
  | scheduleContainsTrue
deriving DecidableEq, Repr

abbrev ObserverEffect := Effect Counter Output

structure Config where
  schedule : List (Nat × UInt8)

/-- What the loop keeps, with the slot it shows to the preparer and the pool it shares. -/
structure State where
  slotState : HashTable Nat SlotState := .empty
  firstSlotSeen : Option Nat := none
  currentSlot : Nat := 0
  pool : TxPool := .empty

/-- Add one, up to 255. -/
def saturatingSucc (count : UInt8) : UInt8 := if count = 255 then 255 else count + 1

/-- Send the transaction for a tick that the schedule names. -/
def fire (cfg : Config) (pool : TxPool) (slot : Nat) (tick : UInt8) (observedAt : Instant) :
    TxPool × List ObserverEffect :=
  if cfg.schedule.contains (slot, tick) then
    match pool.take slot tick with
    | (pool, some tx) => (pool, [.fetchAdd .scheduleContainsCalls 1,
        .fetchAdd .scheduleContainsTrue 1, .trySend (.send ⟨tx, slot, tick, observedAt⟩)])
    | (pool, none) => (pool, [.fetchAdd .scheduleContainsCalls 1,
        .fetchAdd .scheduleContainsTrue 1, .fetchAdd .poolEmpty 1])
  else (pool, [.fetchAdd .scheduleContainsCalls 1])

/-- What becomes of an entry: the state of its slot, the pool, and whether the signatures of
the entry are skipped. -/
structure Counted where
  state : SlotState
  pool : TxPool
  effects : List ObserverEffect := []
  skips : Bool := false

/-- The next tick of a slot. A tick above 64 belongs to a fork. -/
def countTick (cfg : Config) (pool : TxPool) (state : SlotState) (obs : EntryObservation) :
    Counted :=
  let tick := saturatingSucc state.tickIdx
  let state := { state with tickIdx := tick, hashCount := 0 }
  let ev : ObserverEffect := .trySend (.tick ⟨obs.observedAt, obs.slot, tick, obs.numHashes⟩)
  if 64 < tick then
    { state := state, pool := pool, effects := [ev, .fetchAdd .forkTickOverflow 1], skips := true }
  else
    let fired := fire cfg pool obs.slot tick obs.observedAt
    { state := state, pool := fired.1, effects := ev :: fired.2 }

/-- Add the hashes of a new entry. -/
def addHashes (state : SlotState) (obs : EntryObservation) : SlotState :=
  { state with
    seenEntries := obs.entryHash :: state.seenEntries
    hashCount := saturatingAdd 64 state.hashCount obs.numHashes
    cumulativeHashesInSlot := saturatingAdd 64 state.cumulativeHashesInSlot obs.numHashes }

/-- Count a new entry of a slot. -/
def countNew (cfg : Config) (pool : TxPool) (state : SlotState) (obs : EntryObservation) :
    Counted :=
  let state := addHashes state obs
  if obs.txCount = 0 then
    if state.hashCount = hashesPerTick then countTick cfg pool state obs
    -- An entry without transactions that is no tick.
    else { state := state, pool := pool, effects := [.fetchAdd .forkTickOverflow 1] }
  else { state := state, pool := pool }

/-- Count an entry of a slot, if it was not seen before. -/
def countEntry (cfg : Config) (pool : TxPool) (state : SlotState) (obs : EntryObservation) :
    Counted :=
  if obs.entryHash ∈ state.seenEntries then { state := state, pool := pool }
  else countNew cfg pool state obs

/-- The match of a signature of an entry, with the place it was seen at. -/
def matchEvent (slotState : HashTable Nat SlotState) (obs : EntryObservation) (sig : Signature) :
    MatchEvent where
  signature := sig
  observedAt := obs.observedAt
  observedSlot := obs.slot
  observedEntryIndex := obs.entryIndex
  observedTickInSlot := (slotState.get obs.slot).map SlotState.tickIdx
  observedCumulativeHashesInSlot :=
    (slotState.get obs.slot).map SlotState.cumulativeHashesInSlot

/-- The matches of an entry, with what each look-up of a signature finds: whether it is
waited for. -/
def matchEvents (slotState : HashTable Nat SlotState) (obs : EntryObservation)
    (pending : List Bool) : List ObserverEffect :=
  ((obs.signatures.zip pending).filter Prod.snd).map fun looked =>
    .trySend (.matched (matchEvent slotState obs looked.1))

/-- When many slots are kept, forget those far behind. -/
def prune (slotState : HashTable Nat SlotState) (slot : Nat) : HashTable Nat SlotState :=
  if 4096 < slotState.size then slotState.retain fun other _ => slot ≤ other + 200 else slotState

/-- What is done with an entry before its signatures are looked up: the observer after it,
its effects, and whether the signatures are skipped. -/
def countObserved (cfg : Config) (observer : State) (obs : EntryObservation) :
    State × List ObserverEffect × Bool :=
  let slotState := prune observer.slotState obs.slot
  let first := observer.firstSlotSeen.getD obs.slot
  let noted := { observer with
    slotState := slotState, firstSlotSeen := some first, currentSlot := obs.slot }
  if obs.slot = first then (noted, [], false)
  else
    let counted := countEntry cfg observer.pool ((slotState.get obs.slot).getD {}) obs
    ({ noted with slotState := slotState.insert obs.slot counted.state, pool := counted.pool },
      counted.effects, counted.skips)

/-- One entry, whose signatures are looked up one after the other. -/
def observe (cfg : Config) (observer : State) (obs : EntryObservation)
    (pending : List Bool) : State × List ObserverEffect :=
  let (counted, effects, skips) := countObserved cfg observer obs
  (counted, effects ++ if skips then [] else matchEvents counted.slotState obs pending)

/-- What happens: an entry is handled, and some of its signatures are waited for when they are
looked up, or another thread changes the pool. -/
inductive Input where
  | observe (obs : EntryObservation) (pending : List Bool)
  | insert (slot : Nat) (tick : UInt8) (tx : PreSignedTx)
  | take (slot : Nat) (tick : UInt8)
  | pruneOlderThan (cutoffSlot : Nat)
deriving DecidableEq, Repr

def step (cfg : Config) (observer : State) : Input → State × List ObserverEffect
  | .observe obs pending => observe cfg observer obs pending
  | .insert slot tick tx => ({ observer with pool := observer.pool.insert slot tick tx }, [])
  | .take slot tick => ({ observer with pool := (observer.pool.take slot tick).1 }, [])
  | .pruneOlderThan cutoffSlot =>
      ({ observer with pool := observer.pool.pruneOlderThan cutoffSlot }, [])

def run (cfg : Config) (inputs : List Input) : State × List ObserverEffect :=
  runAll (step cfg) {} inputs

/-- What the observer offers in a run, in order. -/
def outputs (cfg : Config) (inputs : List Input) : List Output := sent (run cfg inputs).2

end Observer

end SenderAnalysis.TickTriggerBench

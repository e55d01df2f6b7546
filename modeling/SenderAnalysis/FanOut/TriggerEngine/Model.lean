import Mathlib.Data.Finset.Basic
import SenderAnalysis.FanOut.Nonce.LocalCompute
import SenderAnalysis.FanOut.PohSupervisor.Model

/-!
# The trigger engine

The engine handles the supervisor's events one by one. An entry whose slot and tick
are scheduled fires a trigger, once for every scheduled tick. A signature of an
entry that is waited for is matched and no longer waited for. Every entry hash, and
the hash of every terminal event, is recorded in the cache the next nonces are
computed from, when there is one.

The set of fired ticks belongs to the engine and keeps about 256 slots. The set of
pending signatures is shared: senders insert into it between the engine's events.
The schedule is a snapshot that is loaded for every entry.
-/

set_option autoImplicit false

namespace SenderAnalysis

/-- Identifies the firing of a trigger. -/
structure TriggerId where
  value : Nat
deriving DecidableEq, Repr

/-- The slot in the upper 56 bits, the tick in the lower eight. -/
def TriggerId.fromSlotTick (slot tick : Nat) : TriggerId := ⟨(slot <<< 8) % 2 ^ 64 ||| tick⟩

structure TriggerEvent where
  triggerId : TriggerId
  slot : Nat
  tick : Nat
  triggerObservedAt : Instant
  tickUncertain : Bool
deriving DecidableEq, Repr

structure MatchEvent where
  signature : Signature
  observedAt : Instant
  observedSlot : Nat
  observedEntryIndex : UInt32
  observedTick : Nat
  observedSource : SourceKind
deriving DecidableEq, Repr

namespace TriggerEngine

/-- The counters of the engine. Messages that a full output channel rejects are
counted by the channel's answer and not here. -/
inductive Counter where
  | entriesSeen
  | scheduleHits
  | scheduleDuplicateSuppressed
  | triggersWithUncertainTick
  | sigLookups
  | sigHits
deriving DecidableEq, Repr

/-- What the engine sends, on one channel for the triggers and one for the
matches. -/
inductive Message where
  | trigger (trigger : TriggerEvent)
  | matched (matched : MatchEvent)
deriving DecidableEq, Repr

/-- What the engine does to its counters and its output channels. -/
abbrev EngineEffect := Effect Counter Message

/-- How many slots the fired ticks are remembered for. -/
def firedWindowSlots : Nat := 256

/-- The state of the engine's thread, with the data it shares. -/
structure State where
  fired : Finset (Nat × Nat) := ∅
  lastCompactSlot : Nat := 0
  pendingSigs : Finset Signature := ∅
  nonceSlotHashCache : Option SlotHashCache := none

/-- Feed the cache with the hash of an entry. -/
def recordEntryHash (engine : State) (slot : Nat) (entryHash : Hash) : State :=
  { engine with
    nonceSlotHashCache := engine.nonceSlotHashCache.map fun cache =>
      cache.recordEntry slot entryHash }

/-- Feed the cache with the hash of a terminal event. -/
def recordLifecycle (engine : State) (slot : Nat) (lastEntryHash : Hash) : State :=
  { engine with
    nonceSlotHashCache := engine.nonceSlotHashCache.map fun cache =>
      cache.recordSlotComplete slot lastEntryHash }

/-- Fire the trigger of an entry whose slot and tick are scheduled, unless it has
fired. -/
def scheduleCheck (engine : State) (schedule : Finset (Nat × Nat)) (entry : OrderedEntry)
    (now : Instant) : State × List EngineEffect :=
  let key := (entry.slot, entry.tickIdxInSlot)
  if entry.tickIdxInSlot > 0 ∧ key ∈ schedule then
    if key ∈ engine.fired then (engine, [.fetchAdd .scheduleDuplicateSuppressed 1])
    else
      let trigger : TriggerEvent := {
        triggerId := .fromSlotTick entry.slot entry.tickIdxInSlot
        slot := entry.slot
        tick := entry.tickIdxInSlot
        triggerObservedAt := now
        tickUncertain := entry.tickUncertain }
      ({ engine with fired := insert key engine.fired },
        .fetchAdd .scheduleHits 1 ::
          (if entry.tickUncertain then [.fetchAdd .triggersWithUncertainTick 1] else []) ++
          [.trySend (.trigger trigger)])
  else (engine, [])

/-- Look one signature of an entry up, and match it if it is waited for. -/
def matchSignature (entry : OrderedEntry) (now : Instant) (engine : State)
    (signature : Signature) : State × List EngineEffect :=
  if signature ∈ engine.pendingSigs then
    ({ engine with pendingSigs := engine.pendingSigs.erase signature },
      [.fetchAdd .sigLookups 1, .fetchAdd .sigHits 1,
        .trySend (.matched {
          signature := signature
          observedAt := now
          observedSlot := entry.slot
          observedEntryIndex := entry.entryIndex
          observedTick := entry.tickIdxInSlot
          observedSource := entry.observation.source })])
  else (engine, [.fetchAdd .sigLookups 1])

/-- Forget the fired ticks of slots that are long past. -/
def compact (engine : State) (slot : Nat) : State :=
  if slot > engine.lastCompactSlot + firedWindowSlots then
    { engine with
      lastCompactSlot := slot
      fired := engine.fired.filter fun key => key.1 ≥ slot - firedWindowSlots }
  else engine

/-- Handle an entry. -/
def handleEntry (engine : State) (schedule : Finset (Nat × Nat)) (entry : OrderedEntry)
    (now : Instant) : State × List EngineEffect :=
  let recorded := recordEntryHash engine entry.slot entry.observation.entryHash
  let checked := scheduleCheck recorded schedule entry now
  let matching := runAll (matchSignature entry now) checked.1 entry.observation.signatures
  (compact matching.1 entry.slot, .fetchAdd .entriesSeen 1 :: (checked.2 ++ matching.2))

/-- Handle an event of the supervisor, with the schedule of the moment. -/
def handle (engine : State) (event : OrderedEvent) (schedule : Finset (Nat × Nat))
    (now : Instant) : State × List EngineEffect :=
  match event with
  | .slotComplete c => (recordLifecycle engine c.slot c.lastEntryHash, [])
  | .slotIncomplete i => (recordLifecycle engine i.slot i.lastEntryHash, [])
  | .entry e => handleEntry engine schedule e now
  | .missing _ => (engine, [])

/-- What happens to the engine next: it receives an event, or a sender inserts a
signature. -/
inductive Input where
  | receive (event : OrderedEvent) (schedule : Finset (Nat × Nat)) (now : Instant)
  | insertPending (signature : Signature)

/-- One input. -/
def step (engine : State) : Input → State × List EngineEffect
  | .receive event schedule now => handle engine event schedule now
  | .insertPending signature =>
      ({ engine with pendingSigs := insert signature engine.pendingSigs }, [])

/-- A run of the engine. -/
def run (engine : State) (inputs : List Input) : State × List EngineEffect :=
  runAll step engine inputs

/-- The events the engine receives. -/
def Input.event? : Input → Option OrderedEvent
  | .receive event _ _ => some event
  | .insertPending _ => none

/-- The triggers among the messages. -/
def Message.trigger? : Message → Option TriggerEvent
  | .trigger fired => some fired
  | .matched _ => none

/-- The matches among the messages. -/
def Message.matched? : Message → Option MatchEvent
  | .matched hit => some hit
  | .trigger _ => none

end TriggerEngine

end SenderAnalysis

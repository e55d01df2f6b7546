import SenderAnalysis.FanOut.Dispatcher
import SenderAnalysis.FanOut.Preparer
import SenderAnalysis.FanOut.Schedule

/-!
# What becomes of a scheduled trigger

The pump generates the schedule chunk by chunk. It offers every entry to the preparer's
channel, collects it, and after a chunk stores all it has collected as the schedule the
engine reads. The preparer signs for an entry and puts the transactions into the pool,
and the dispatcher takes them out when the trigger fires. Every half second the preparer
drops old transactions from the pool; it reads the size of the pool before and after, and
counts the difference.

These threads are interleaved in any order. Whether the channel accepts an entry, and when
the pump stores, is left open. What the threads do is reported by events, and every
counter of the preparer and the dispatcher that is about entries or triggers is the number
of some of them.
-/

set_option autoImplicit false

namespace SenderAnalysis

/-- The slot and tick of an entry. -/
def ScheduleEntry.key (entry : ScheduleEntry) : Nat × Nat := (entry.slot, entry.tick)

/-- The slots and ticks that have transactions in the pool. -/
def TxPool.keys (pool : TxPool) : List (Nat × Nat) := pool.entries.map Sigma.fst

namespace ScheduleFlow

/-- How far the preparer has come in a sweep of the pool: it has read the size, or has
also dropped what is old. -/
inductive Sweep where
  | started (before cutoff : Nat)
  | dropped (before : Nat)
deriving DecidableEq, Repr

/-- The state the threads share, and that of the pump and the preparer. Without nonces
there is no manager. -/
structure State where
  schedule : Schedule
  chunk : List ScheduleEntry := []
  accumulated : Finset (Nat × Nat) := ∅
  snapshot : Finset (Nat × Nat) := ∅
  queue : List ScheduleEntry := []
  preparer : Preparer.State
  sweep : Option Sweep := none
  manager : Option NonceManager
  cached : Option Hash := none
  pool : TxPool := .empty

/-- What one of the threads does next. -/
inductive Input where
  | nextChunk
  | offer (accepted : Bool)
  | store
  | fetch (currentSlot : Nat) (now : Instant)
  | insert (signed : List (UInt8 × Signature))
  | startSweep (currentSlot : Nat) (now : Instant)
  | dropBelow
  | finishSweep
  | dispatch (trig : TriggerEvent)
  | refresh (blockhash : Hash)
  | manage (operation : NonceManager.Operation)

/-- What happens to an entry or a trigger. Except for `refused`, `replaced` and `dropped`,
which nothing counts, an event is one increment of a counter; `evictions` adds its
amount. -/
inductive Event where
  | queued (entry : ScheduleEntry)
  | refused (entry : ScheduleEntry)
  | pastSlot (entry : ScheduleEntry)
  | stalled (entry : ScheduleEntry)
  | prepared (entry : ScheduleEntry)
  | replaced (entry : ScheduleEntry)
  | dropped (key : Nat × Nat)
  | evictions (amount : Nat)
  | hit (trig : TriggerEvent) (sweeping : Bool)
  | fallback (trig : TriggerEvent)
  | skipped (trig : TriggerEvent)
deriving DecidableEq, Repr

/-! ## The steps -/

/-- The pump generates the next chunk when it has sent the last one. -/
def nextChunk (state : State) : State × List Event :=
  match state.chunk, state.schedule.nextChunk with
  | [], some (schedule, chunk) => ({ state with schedule, chunk }, [])
  | _, _ => (state, [])

/-- The pump collects the next entry of the chunk and offers it to the preparer. -/
def offer (state : State) (accepted : Bool) : State × List Event :=
  match state.chunk with
  | [] => (state, [])
  | entry :: chunk =>
      let collected := { state with chunk, accumulated := insert entry.key state.accumulated }
      if accepted then ({ collected with queue := state.queue ++ [entry] }, [.queued entry])
      else (collected, [.refused entry])

/-- The pump stores what it has collected, between two chunks. -/
def store (state : State) : State × List Event :=
  match state.chunk with
  | [] => ({ state with snapshot := state.accumulated }, [])
  | _ :: _ => (state, [])

/-- The entry the preparer goes on with, and the channel after it: it receives one unless
an entry waits for a nonce or a blockhash. -/
def receive (preparer : Preparer.State) (queue : List ScheduleEntry) :
    Option ScheduleEntry × List ScheduleEntry :=
  match preparer.pending, queue with
  | none, entry :: rest => (some entry, rest)
  | _, _ => (none, queue)

/-- The preparer takes what it signs with, or keeps the entry. -/
def acquire (state : State) (preparer : Preparer.State) (entry : ScheduleEntry) (now : Instant) :
    State :=
  match state.manager with
  | some manager =>
      let taken := Preparer.takeNonce preparer manager entry now
      { state with preparer := taken.1, manager := some taken.2 }
  | none =>
      { state with preparer := Preparer.takeBlockhash preparer state.cached entry now }

/-- The preparer goes on with an entry, unless it is signing or sweeping. -/
def fetch (state : State) (currentSlot : Nat) (now : Instant) : State × List Event :=
  if state.preparer.signing.isSome || state.sweep.isSome then (state, [])
  else
    let (received, queue) := receive state.preparer state.queue
    match Preparer.nextEntry state.preparer received currentSlot with
    | (preparer, none) =>
        ({ state with preparer, queue },
          (state.preparer.pending <|> received).toList.map .pastSlot)
    | (preparer, some entry) =>
        let acquired := acquire { state with queue } preparer entry now
        (acquired, acquired.preparer.pending.toList.map .stalled)

/-- The preparer puts the signed transactions into the pool. -/
def insert (state : State) (signed : List (UInt8 × Signature)) : State × List Event :=
  match state.preparer.signing with
  | none => (state, [])
  | some signing =>
      let inserted := Preparer.insertVariants state.preparer state.pool signed
      ({ state with preparer := inserted.1, pool := inserted.2 },
        (if (state.pool.get signing.entry.key).isSome then [.replaced signing.entry] else []) ++
          [.prepared signing.entry])

/-- The preparer begins a sweep of the pool, when it is due. -/
def startSweep (state : State) (currentSlot : Nat) (now : Instant) : State × List Event :=
  if state.preparer.signing.isSome || state.sweep.isSome then (state, [])
  else
    ({ state with
        preparer := (Preparer.maybeEvict state.preparer state.pool currentSlot now).1
        sweep := (Preparer.evictCutoff state.preparer currentSlot now).map
          (.started state.pool.size) }, [])

/-- The preparer drops what is old. -/
def dropBelow (state : State) : State × List Event :=
  match state.sweep with
  | some (.started before cutoff) =>
      ({ state with pool := state.pool.evictBelow cutoff, sweep := some (.dropped before) },
        (state.pool.keys.filter fun key => key.1 < cutoff).map .dropped)
  | some (.dropped _) | none => (state, [])

/-- The preparer reads the size again and counts the difference. -/
def finishSweep (state : State) : State × List Event :=
  match state.sweep with
  | some (.dropped before) =>
      ({ state with sweep := none },
        if before > state.pool.size then [.evictions (before - state.pool.size)] else [])
  | some (.started _ _) | none => (state, [])

/-- The dispatcher takes the transactions of a trigger out of the pool. Without them it
builds others, unless it is in nonce mode or has no blockhash. -/
def dispatch (state : State) (trig : TriggerEvent) : State × List Event :=
  match state.pool.take trig.slot trig.tick with
  | (pool, some _) => ({ state with pool }, [.hit trig state.sweep.isSome])
  | (_, none) =>
      (state,
        if state.manager.isSome || state.cached.isNone then [.skipped trig] else [.fallback trig])

/-- One step of one thread. -/
def step (state : State) : Input → State × List Event
  | .nextChunk => nextChunk state
  | .offer accepted => offer state accepted
  | .store => store state
  | .fetch currentSlot now => fetch state currentSlot now
  | .insert signed => insert state signed
  | .startSweep currentSlot now => startSweep state currentSlot now
  | .dropBelow => dropBelow state
  | .finishSweep => finishSweep state
  | .dispatch trig => dispatch state trig
  | .refresh blockhash => ({ state with cached := some blockhash }, [])
  | .manage operation =>
      ({ state with manager := state.manager.map fun manager =>
          (NonceManager.apply manager operation).1 }, [])

/-- The threads start with an empty pool. -/
def initial (schedule : Schedule) (manager : Option NonceManager) (startedAt : Instant) :
    State where
  schedule := schedule
  preparer := { lastEvict := startedAt }
  manager := manager

/-- A run of the threads. -/
def run (schedule : Schedule) (manager : Option NonceManager) (startedAt : Instant)
    (inputs : List Input) : State × List Event :=
  runAll step (initial schedule manager startedAt) inputs

end ScheduleFlow

end SenderAnalysis

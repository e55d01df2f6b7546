import SenderAnalysis.FanOut.Dispatcher
import SenderAnalysis.FanOut.Nonce.Transitions
import SenderAnalysis.FanOut.Preparer

/-!
# The lives of triggers

Around the nonce manager and the pool of transactions run the preparer, the
dispatcher, the recorder and the fetcher of stale nonces, each on a thread of its
own. A run is any interleaving of what they do to the shared state.

A trigger is live from the moment the preparer takes a nonce for it until its
transactions are dropped from the pool, or all its attempts are finalised by the
recorder. The list of live triggers is not part of the program; it is kept next to
the shared state to say which trigger uses which nonce value. A trigger whose
transactions are replaced in the pool by others for the same slot and tick stays
live for good. When the recorder finalises an attempt is left open.
-/

set_option autoImplicit false

namespace SenderAnalysis.TriggerLives

/-- How far a live trigger has come: it is being signed, its transactions are in the
pool or were replaced there, or it was dispatched and some attempts are not final. -/
inductive Stage where
  | signing
  | pooled
  | replaced
  | dispatched (attempts : List PreSignedTx)
deriving DecidableEq, Repr

structure LiveTrigger where
  entry : ScheduleEntry
  nonceId : NonceId
  blockhash : Hash
  stage : Stage
deriving DecidableEq, Repr

/-- The nonce value a trigger holds. -/
def LiveTrigger.nonceValue (trigger : LiveTrigger) : NonceId × Hash :=
  (trigger.nonceId, trigger.blockhash)

/-- The nonce value a transaction is signed with. -/
def nonceValue? (tx : PreSignedTx) : Option (NonceId × Hash) :=
  tx.nonceId.map fun id => (id, tx.blockhash)

/-- The shared state, the preparer's own, and the live triggers. -/
structure State where
  manager : NonceManager
  pool : TxPool
  preparer : Preparer.State
  live : List LiveTrigger

/-- What one of the threads does. -/
inductive Input where
  | fetch (received : Option ScheduleEntry) (currentSlot : Nat) (now : Instant)
  | insert (signed : List (UInt8 × Signature))
  | evict (currentSlot : Nat) (now : Instant)
  | dispatch (trig : TriggerEvent)
  | finalise (trigger : LiveTrigger) (signature : Signature)
  | onObservedLanding (nonceId : NonceId) (now : Instant)
  | onLandingWithBlockhash (nonceId : NonceId) (newBlockhash : Hash)
  | tickTimeouts (now : Instant) (inFlightDeadline awaitingUpdateDeadline : Duration)
  | onFallbackRefresh (pubkey : Pubkey) (observedBlockhash : Hash)
deriving DecidableEq, Repr

/-! ## The stages of a trigger -/

/-- The trigger that is being signed for. -/
def opened (preparer : Preparer.State) : Option LiveTrigger :=
  preparer.signing.bind fun signing => signing.nonceId.map fun id =>
    ⟨signing.entry, id, signing.blockhash, .signing⟩

/-- The transactions of an entry come into the pool, in the place of those there. -/
def LiveTrigger.inserted (entry : ScheduleEntry) (trigger : LiveTrigger) : LiveTrigger :=
  match trigger.stage with
  | .signing => { trigger with stage := .pooled }
  | .pooled =>
      if trigger.entry = entry then { trigger with stage := .replaced } else trigger
  | .replaced | .dispatched _ => trigger

/-- The pool was dropped below a slot. -/
def LiveTrigger.evictedBelow (cutoff : Nat) (trigger : LiveTrigger) : Bool :=
  trigger.stage = .pooled && trigger.entry.slot < cutoff

/-- The transactions of an entry are taken out of the pool and sent. -/
def LiveTrigger.dispatched (entry : ScheduleEntry) (attempts : List PreSignedTx)
    (trigger : LiveTrigger) : LiveTrigger :=
  if trigger.stage = .pooled ∧ trigger.entry = entry then
    { trigger with stage := .dispatched attempts }
  else trigger

/-- An attempt is final. -/
def LiveTrigger.finalised (signature : Signature) (trigger : LiveTrigger) : LiveTrigger :=
  match trigger.stage with
  | .dispatched attempts =>
      { trigger with stage := .dispatched (attempts.filter fun tx => tx.signature ≠ signature) }
  | .signing | .pooled | .replaced => trigger

/-- A dispatched trigger whose attempts are all final is no longer live. -/
def LiveTrigger.isLive (trigger : LiveTrigger) : Bool := trigger.stage ≠ .dispatched []

/-! ## Steps -/

/-- The preparer takes the next entry and a nonce for it, unless it is signing. -/
def fetch (state : State) (received : Option ScheduleEntry) (currentSlot : Nat) (now : Instant) :
    State :=
  if state.preparer.signing.isSome then state
  else
    match Preparer.nextEntry state.preparer received currentSlot with
    | (preparer, none) => { state with preparer := preparer }
    | (preparer, some entry) =>
        let taken := Preparer.takeNonce preparer state.manager entry now
        { state with
          preparer := taken.1
          manager := taken.2
          live := (opened taken.1).toList ++ state.live }

/-- The preparer puts the signed transactions into the pool. -/
def insert (state : State) (signed : List (UInt8 × Signature)) : State :=
  match state.preparer.signing with
  | none => state
  | some signing =>
      let inserted := Preparer.insertVariants state.preparer state.pool signed
      { state with
        preparer := inserted.1
        pool := inserted.2
        live := state.live.map (LiveTrigger.inserted signing.entry) }

/-- The preparer sweeps the pool. -/
def evict (state : State) (currentSlot : Nat) (now : Instant) : State :=
  let evicted := Preparer.maybeEvict state.preparer state.pool currentSlot now
  { state with
    preparer := evicted.1
    pool := evicted.2
    live :=
      match Preparer.evictCutoff state.preparer currentSlot now with
      | some cutoff => state.live.filter fun trigger => !trigger.evictedBelow cutoff
      | none => state.live }

/-- The transactions that are sent: those whose sender is configured. -/
def attemptsOf (cfg : Dispatcher.Config) (trig : TriggerEvent) (variants : List PreSignedTx) :
    List PreSignedTx :=
  variants.filter fun tx => (Dispatcher.registration cfg trig tx).isSome

/-- The dispatcher takes the transactions of a trigger and sends them. -/
def dispatch (cfg : Dispatcher.Config) (state : State) (trig : TriggerEvent) : State :=
  { state with
    pool := (Dispatcher.dispatch cfg state.pool trig).1
    live :=
      match state.pool.get (trig.slot, trig.tick) with
      | some variants =>
          (state.live.map (LiveTrigger.dispatched ⟨trig.slot, trig.tick⟩
            (attemptsOf cfg trig variants))).filter LiveTrigger.isLive
      | none => state.live }

/-- The recorder finalises an attempt of a live trigger. -/
def finalise (state : State) (target : LiveTrigger) (signature : Signature) : State :=
  { state with
    live := (state.live.map fun trigger =>
      if trigger = target then trigger.finalised signature else trigger).filter
        LiveTrigger.isLive }

/-- The recorder or the fetcher calls the manager. -/
def manage (state : State) (operation : NonceManager.Operation) : State :=
  { state with manager := (NonceManager.apply state.manager operation).1 }

/-- One step of one thread. -/
def step (cfg : Dispatcher.Config) (state : State) : Input → State
  | .fetch received currentSlot now => fetch state received currentSlot now
  | .insert signed => insert state signed
  | .evict currentSlot now => evict state currentSlot now
  | .dispatch trig => dispatch cfg state trig
  | .finalise trigger signature => finalise state trigger signature
  | .onObservedLanding id now => manage state (.onObservedLanding id now)
  | .onLandingWithBlockhash id new => manage state (.onLandingWithBlockhash id new)
  | .tickTimeouts now inFlight awaiting => manage state (.tickTimeouts now inFlight awaiting)
  | .onFallbackRefresh pubkey observed => manage state (.onFallbackRefresh pubkey observed)

/-- The state at the start of the threads. -/
def initial (accounts : List NonceAccount) (startedAt : Instant) : State where
  manager := .new accounts
  pool := .empty
  preparer := { lastEvict := startedAt }
  live := []

/-- The state after a run. -/
def run (cfg : Dispatcher.Config) (accounts : List NonceAccount) (startedAt : Instant)
    (inputs : List Input) : State :=
  inputs.foldl (step cfg) (initial accounts startedAt)

theorem run_concat (cfg : Dispatcher.Config) (accounts : List NonceAccount) (startedAt : Instant)
    (past : List Input) (input : Input) :
    run cfg accounts startedAt (past ++ [input]) =
      step cfg (run cfg accounts startedAt past) input := by
  simp only [run, List.foldl_append, List.foldl_cons, List.foldl_nil]

end SenderAnalysis.TriggerLives

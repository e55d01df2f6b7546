import SenderAnalysis.TickTriggerBench.Finalizer.Model
import SenderAnalysis.TickTriggerBench.Observer.Model

/-!
# From a tick to a final record

When a scheduled tick is seen, the observer takes the transaction pooled for it and hands a
command to the dispatcher. The dispatcher has a limited number of requests in flight. It
registers the signature as pending before it sends, and reports to the finalizer when the
answer is there. The observer looks every signature of an entry up in the pending ones, and
offers a match to the finalizer if it is there. The finalizer writes one record for a send,
takes the signature out of the pending ones, and asks the RPC about a send that was not seen
in time. When it returns, what is in its queues is lost, and what is offered to them later is
refused.

The threads share the pool, the pending signatures and the queues between them, and are
interleaved in any order. A thread that handles one item performs its effects and its
look-ups one after the other, and others may step in between. Whether a queue accepts what is
offered is left open as long as there is somebody to take it.
-/

set_option autoImplicit false

namespace SenderAnalysis.TickTriggerBench

/-- Why a send failed. -/
inductive SendError where
  | httpStatus (code : UInt16) (body : String)
  | rpcError (message : String)
  | network (text : String)
  | parse (message : String)
deriving DecidableEq, Repr

/-- The text of an error in a send event. -/
def SendError.text : SendError → String
  | .httpStatus code body => "http " ++ toString code ++ ": " ++ body
  | .network text => "net: " ++ text
  | .rpcError message => "rpc: " ++ message
  | .parse message => "parse: " ++ message

/-- What the RPC knows of a signature. -/
structure TransactionStatus where
  confirmations : Option Nat
  confirmationStatus : Option String
deriving DecidableEq, Repr

/-- A transaction has landed when it is rooted or has some confirmation. -/
def TransactionStatus.landed (status : TransactionStatus) : Bool :=
  status.confirmations.isNone || status.confirmationStatus.isSome

namespace SendFlow

structure Config where
  observer : Observer.Config
  /-- Zero is no limit. -/
  maxInflight : Nat
  blockhashMaxAge : Duration
  deadline : Duration
  batchSize : Nat

/-- A request without an answer. -/
structure InFlight where
  cmd : SendCommand
  sendAt : Instant
deriving DecidableEq, Repr

/-- What the threads share, and what each has still to do. -/
structure State where
  observer : Observer.State := {}
  offers : List Observer.ObserverEffect := []
  /-- The signatures of the entry that are still to be looked up, with their matches. -/
  lookups : List MatchEvent := []
  sendQueue : List SendCommand := []
  inFlight : List InFlight := []
  pendingSigs : List Signature := []
  sendEvents : List SendEvent := []
  matchEvents : List MatchEvent := []
  finalizer : Finalizer.State := {}
  emissions : List Finalizer.FinalizerEffect := []
  drained : Bool := false
  returned : Bool := false
  fallbackQueue : List Signature := []
  batch : List Signature := []

/-- What a thread does next. -/
inductive Input where
  | observe (obs : EntryObservation)
  | offer (accepted : Bool)
  | lookUp
  | insert (slot : Nat) (tick : UInt8) (tx : PreSignedTx)
  | take (slot : Nat) (tick : UInt8)
  | pruneOlderThan (cutoffSlot : Nat)
  | dispatch (now sendAt : Instant)
  | respond (index : Nat) (result : Except SendError String) (responseAt : Instant)
      (accepted : Bool)
  | finalizeSend (now : Instant)
  | finalizeMatch
  | sweep (now : Instant)
  | drain
  | emit (accepted : Bool)
  | hangUp
  | ask
  | answer (statuses : Option (List (Option TransactionStatus)))
deriving DecidableEq

/-- What is done. An effect that offers something to a queue comes with whether the queue
accepts it; what is refused is counted. Of the others, the errors and the expired blockhashes
are counted. -/
inductive Event where
  | observed (obs : EntryObservation) (skips : Bool)
  | offered (effect : Observer.ObserverEffect) (accepted : Bool)
  | lookedUp (ev : MatchEvent) (found : Bool)
  | blockhashExpired (cmd : SendCommand)
  | registered (cmd : SendCommand)
  | sendHttpError
  | sendNetworkError
  | responded (ev : SendEvent) (accepted : Bool)
  | received (ev : SendEvent)
  | emitted (effect : Finalizer.FinalizerEffect) (accepted : Bool)
  | abandoned (ev : SendEvent)
  | annotated (sig : Signature) (landed : Bool)
  | unanswered (sig : Signature)
  | rpcFallbackError (batch : List Signature)
deriving DecidableEq

/-! ## The observer -/

/-- The observer takes the next entry when it is through with the last one. -/
def observe (cfg : Config) (state : State) (obs : EntryObservation) : State × List Event :=
  match state.offers, state.lookups with
  | [], [] =>
      let (observer, offers, skips) := Observer.countObserved cfg.observer state.observer obs
      ({ state with
          observer
          offers
          lookups := if skips then []
            else obs.signatures.map (Observer.matchEvent observer.slotState obs) },
        [.observed obs skips])
  | _, _ => (state, [])

/-- What a queue that accepts a message holds after it. -/
def accept (state : State) : Observer.ObserverEffect → State
  | .trySend (.send cmd) => { state with sendQueue := state.sendQueue ++ [cmd] }
  | .trySend (.matched ev) => { state with matchEvents := state.matchEvents ++ [ev] }
  | .trySend (.tick _) | .fetchAdd _ _ | .fetchMin _ _ | .fetchMax _ _ => state

/-- The observer performs its next effect. The finalizer takes no match after its return. -/
def offer (state : State) (accepted : Bool) : State × List Event :=
  match state.offers with
  | [] => (state, [])
  | effect :: offers =>
      let taken := match effect with
        | .trySend (.matched _) => accepted && !state.returned
        | .trySend (.tick _) | .trySend (.send _) | .fetchAdd _ _ | .fetchMin _ _
        | .fetchMax _ _ => accepted
      let performed := { state with offers }
      (if taken then accept performed effect else performed, [.offered effect taken])

/-- The observer looks the next signature of the entry up in the pending ones. -/
def lookUp (state : State) : State × List Event :=
  match state.offers, state.lookups with
  | [], ev :: lookups =>
      let found := state.pendingSigs.contains ev.signature
      ({ state with
          lookups
          offers := if found then [.trySend (.matched ev)] else [] }, [.lookedUp ev found])
  | _, _ => (state, [])

/-! ## The dispatcher -/

/-- The dispatcher takes a command when it has fewer requests in flight than it may have.
A transaction with an old blockhash is not sent. -/
def dispatch (cfg : Config) (state : State) (now sendAt : Instant) : State × List Event :=
  match state.sendQueue with
  | [] => (state, [])
  | cmd :: sendQueue =>
      if cfg.maxInflight ≠ 0 ∧ cfg.maxInflight ≤ state.inFlight.length then (state, [])
      else if cfg.blockhashMaxAge < saturatingDurationSince now cmd.tx.builtAt then
        ({ state with sendQueue }, [.blockhashExpired cmd])
      else
        ({ state with
            sendQueue
            pendingSigs := state.pendingSigs.insert cmd.tx.signature
            inFlight := state.inFlight ++ [⟨cmd, sendAt⟩] }, [.registered cmd])

/-- The error of a request. -/
def error? : Except SendError String → Option SendError
  | .ok _ => none
  | .error e => some e

/-- How an error is counted. -/
def errorEvents : Except SendError String → List Event
  | .ok _ => []
  | .error (.network _) => [.sendNetworkError]
  | .error (.httpStatus _ _) | .error (.rpcError _) | .error (.parse _) => [.sendHttpError]

/-- The report of a request. -/
def InFlight.sendEvent (request : InFlight) (result : Except SendError String)
    (responseAt : Instant) : SendEvent where
  signature := request.cmd.tx.signature
  scheduleSlot := request.cmd.scheduleSlot
  scheduleTick := request.cmd.scheduleTick
  triggerObservedAt := request.cmd.triggerObservedAt
  sendAt := request.sendAt
  responseAt := responseAt
  error := (error? result).map SendError.text

/-- One of the requests in flight is answered, or fails. The finalizer takes no report after
its return. -/
def respond (state : State) (index : Nat) (result : Except SendError String)
    (responseAt : Instant) (accepted : Bool) : State × List Event :=
  match state.inFlight[index]? with
  | none => (state, [])
  | some request =>
      let ev := request.sendEvent result responseAt
      let taken := accepted && !state.returned
      ({ state with
          inFlight := state.inFlight.eraseIdx index
          sendEvents := if taken then state.sendEvents ++ [ev] else state.sendEvents },
        errorEvents result ++ [.responded ev taken])

/-! ## The finalizer -/

/-- The finalizer goes on when it is through with what it emits, until it has drained. -/
def finalize (state : State) (next : State × List Finalizer.FinalizerEffect)
    (events : List Event) : State × List Event :=
  match state.drained, state.emissions with
  | false, [] => ({ next.1 with emissions := next.2 }, events)
  | _, _ => (state, [])

/-- The finalizer takes a send event. -/
def finalizeSend (state : State) (now : Instant) : State × List Event :=
  match state.sendEvents with
  | [] => (state, [])
  | ev :: sendEvents =>
      let handled := Finalizer.handleSend state.finalizer ev now
      finalize state ({ state with finalizer := handled.1, sendEvents }, handled.2) [.received ev]

/-- The finalizer takes a match event. -/
def finalizeMatch (state : State) : State × List Event :=
  match state.matchEvents with
  | [] => (state, [])
  | ev :: matchEvents =>
      let handled := Finalizer.handleMatch state.finalizer ev
      finalize state ({ state with finalizer := handled.1, matchEvents }, handled.2) []

/-- The finalizer gives up what has waited for too long. -/
def sweep (cfg : Config) (state : State) (now : Instant) : State × List Event :=
  let swept := Finalizer.sweep cfg.deadline state.finalizer now
  finalize state ({ state with finalizer := swept.1 }, swept.2) []

/-- The finalizer ends. -/
def drain (state : State) : State × List Event :=
  let drained := Finalizer.drain state.finalizer
  finalize state ({ state with finalizer := drained.1, drained := true }, drained.2) []

/-- What the finalizer's next effect does to what it shares. -/
def perform (state : State) : Finalizer.FinalizerEffect → State
  | .trySend (.removePending sig) =>
      { state with pendingSigs := state.pendingSigs.filter fun other => other ≠ sig }
  | .trySend (.pushFallback sig) => { state with fallbackQueue := state.fallbackQueue ++ [sig] }
  | .trySend (.final _) | .fetchAdd _ _ | .fetchMin _ _ | .fetchMax _ _ => state

/-- The finalizer performs its next effect. Only a record can be refused. -/
def emit (state : State) (accepted : Bool) : State × List Event :=
  match state.emissions with
  | [] => (state, [])
  | effect :: emissions => (perform { state with emissions } effect, [.emitted effect accepted])

/-- The finalizer returns when it has emitted what it drained, and its queues go with it. -/
def hangUp (state : State) : State × List Event :=
  match state.drained, state.emissions with
  | true, [] =>
      ({ state with sendEvents := [], matchEvents := [], returned := true },
        state.sendEvents.map .abandoned)
  | _, _ => (state, [])

/-! ## The RPC fallback -/

/-- The next batch is taken when the last one is answered. -/
def ask (cfg : Config) (state : State) : State × List Event :=
  match state.batch with
  | [] =>
      ({ state with
          batch := state.fallbackQueue.take cfg.batchSize
          fallbackQueue := state.fallbackQueue.drop cfg.batchSize }, [])
  | _ :: _ => (state, [])

/-- Annotate the signatures of a batch. What comes after the last status is left out. -/
def annotate : List Signature → List (Option TransactionStatus) → List Event
  | sig :: batch, status :: statuses =>
      .annotated sig ((status.map TransactionStatus.landed).getD false) :: annotate batch statuses
  | batch, [] => batch.map .unanswered
  | [], _ => []

/-- The answer to a batch, or its failure. -/
def answer (state : State) (statuses : Option (List (Option TransactionStatus))) :
    State × List Event :=
  match state.batch, statuses with
  | [], _ => (state, [])
  | batch, some statuses => ({ state with batch := [] }, annotate batch statuses)
  | batch, none => ({ state with batch := [] }, [.rpcFallbackError batch])

/-! ## Runs -/

/-- One step of one thread. -/
def step (cfg : Config) (state : State) : Input → State × List Event
  | .observe obs => observe cfg state obs
  | .offer accepted => offer state accepted
  | .lookUp => lookUp state
  | .insert slot tick tx =>
      ({ state with observer.pool := state.observer.pool.insert slot tick tx }, [])
  | .take slot tick =>
      ({ state with observer.pool := (state.observer.pool.take slot tick).1 }, [])
  | .pruneOlderThan cutoffSlot =>
      ({ state with observer.pool := state.observer.pool.pruneOlderThan cutoffSlot }, [])
  | .dispatch now sendAt => dispatch cfg state now sendAt
  | .respond index result responseAt accepted => respond state index result responseAt accepted
  | .finalizeSend now => finalizeSend state now
  | .finalizeMatch => finalizeMatch state
  | .sweep now => sweep cfg state now
  | .drain => drain state
  | .emit accepted => emit state accepted
  | .hangUp => hangUp state
  | .ask => ask cfg state
  | .answer statuses => answer state statuses

/-- A run of the threads. -/
def run (cfg : Config) (inputs : List Input) : State × List Event := runAll (step cfg) {} inputs

/-! ## What a step can do -/

/-- A queue that accepts a message is no matter of the other threads. -/
theorem accept_frame (state : State) (effect : Observer.ObserverEffect) (accepted : Bool) :
    ∃ sendQueue matchEvents, (if accepted then accept state effect else state) =
      { state with sendQueue, matchEvents } := by
  cases accepted
  · exact ⟨state.sendQueue, state.matchEvents, rfl⟩
  · simp only [if_true, accept]
    split
    · exact ⟨_, state.matchEvents, rfl⟩
    · exact ⟨state.sendQueue, _, rfl⟩
    all_goals exact ⟨state.sendQueue, state.matchEvents, rfl⟩

/-- What the finalizer emits is no matter of the queues it takes from. -/
theorem perform_frame (state : State) (effect : Finalizer.FinalizerEffect) :
    ∃ pendingSigs fallbackQueue, perform state effect =
      { state with pendingSigs, fallbackQueue } := by
  unfold perform
  split
  · exact ⟨_, state.fallbackQueue, rfl⟩
  · exact ⟨state.pendingSigs, _, rfl⟩
  all_goals exact ⟨state.pendingSigs, state.fallbackQueue, rfl⟩

/-- What a step can do: nothing, or what one of the threads does next. -/
inductive Does (cfg : Config) (state : State) : State × List Event → Prop where
  | still : Does cfg state (state, [])
  | observe (obs : EntryObservation) (observer : Observer.State)
      (offers : List Observer.ObserverEffect) (skips : Bool)
      (counted : Observer.countObserved cfg.observer state.observer obs = (observer, offers, skips))
      (idle : state.offers = []) (through : state.lookups = []) :
      Does cfg state
        ({ state with
            observer
            offers
            lookups := if skips then []
              else obs.signatures.map (Observer.matchEvent observer.slotState obs) },
          [.observed obs skips])
  | offer (effect : Observer.ObserverEffect) (offers : List Observer.ObserverEffect)
      (accepted : Bool) (next : state.offers = effect :: offers) :
      Does cfg state
        (if accepted then accept { state with offers } effect else { state with offers },
          [.offered effect accepted])
  | lookUp (ev : MatchEvent) (lookups : List MatchEvent) (idle : state.offers = [])
      (next : state.lookups = ev :: lookups) :
      Does cfg state
        ({ state with
            lookups
            offers := if state.pendingSigs.contains ev.signature then [.trySend (.matched ev)]
              else [] }, [.lookedUp ev (state.pendingSigs.contains ev.signature)])
  | pool (pool : TxPool) : Does cfg state ({ state with observer.pool := pool }, [])
  | expire (cmd : SendCommand) (sendQueue : List SendCommand)
      (next : state.sendQueue = cmd :: sendQueue) :
      Does cfg state ({ state with sendQueue }, [.blockhashExpired cmd])
  | register (cmd : SendCommand) (sendQueue : List SendCommand) (sendAt : Instant)
      (next : state.sendQueue = cmd :: sendQueue)
      (room : cfg.maxInflight ≠ 0 → state.inFlight.length < cfg.maxInflight) :
      Does cfg state
        ({ state with
            sendQueue
            pendingSigs := state.pendingSigs.insert cmd.tx.signature
            inFlight := state.inFlight ++ [⟨cmd, sendAt⟩] }, [.registered cmd])
  | respond (index : Nat) (request : InFlight) (result : Except SendError String)
      (responseAt : Instant) (accepted : Bool) (found : state.inFlight[index]? = some request)
      (taker : accepted = true → state.returned = false) :
      Does cfg state
        ({ state with
            inFlight := state.inFlight.eraseIdx index
            sendEvents := if accepted then
              state.sendEvents ++ [request.sendEvent result responseAt] else state.sendEvents },
          errorEvents result ++ [.responded (request.sendEvent result responseAt) accepted])
  | finalizeSend (ev : SendEvent) (sendEvents : List SendEvent) (now : Instant)
      (next : state.sendEvents = ev :: sendEvents) (idle : state.emissions = []) :
      Does cfg state
        ({ state with
            sendEvents
            finalizer := (Finalizer.handleSend state.finalizer ev now).1
            emissions := (Finalizer.handleSend state.finalizer ev now).2 }, [.received ev])
  | finalizeMatch (ev : MatchEvent) (matchEvents : List MatchEvent)
      (next : state.matchEvents = ev :: matchEvents) (idle : state.emissions = []) :
      Does cfg state
        ({ state with
            matchEvents
            finalizer := (Finalizer.handleMatch state.finalizer ev).1
            emissions := (Finalizer.handleMatch state.finalizer ev).2 }, [])
  | giveUp (sigs : List Signature) (drained : Bool) (idle : state.emissions = []) :
      Does cfg state
        ({ state with
            finalizer := (runAll Finalizer.giveUp state.finalizer sigs).1
            emissions := (runAll Finalizer.giveUp state.finalizer sigs).2
            drained }, [])
  | emit (effect : Finalizer.FinalizerEffect) (emissions : List Finalizer.FinalizerEffect)
      (accepted : Bool) (next : state.emissions = effect :: emissions) :
      Does cfg state (perform { state with emissions } effect, [.emitted effect accepted])
  | hangUp (idle : state.emissions = []) :
      Does cfg state
        ({ state with sendEvents := [], matchEvents := [], returned := true },
          state.sendEvents.map .abandoned)
  | ask (idle : state.batch = []) :
      Does cfg state
        ({ state with
            batch := state.fallbackQueue.take cfg.batchSize
            fallbackQueue := state.fallbackQueue.drop cfg.batchSize }, [])
  | answer (statuses : List (Option TransactionStatus)) :
      Does cfg state ({ state with batch := [] }, annotate state.batch statuses)
  | fail : Does cfg state ({ state with batch := [] }, [.rpcFallbackError state.batch])

/-- The finalizer does nothing, or takes the step. -/
theorem finalize_cases (state : State) (next : State × List Finalizer.FinalizerEffect)
    (events : List Event) :
    finalize state next events = (state, []) ∨
      state.drained = false ∧ state.emissions = [] ∧
        finalize state next events = ({ next.1 with emissions := next.2 }, events) := by
  unfold finalize
  split
  · next running idle => exact .inr ⟨running, idle, rfl⟩
  · exact .inl rfl

theorem does_dispatch (cfg : Config) (state : State) (now sendAt : Instant) :
    Does cfg state (dispatch cfg state now sendAt) := by
  unfold dispatch
  split
  · exact .still
  · next cmd sendQueue next =>
    split
    · exact .still
    · next room =>
      split
      · exact .expire cmd sendQueue next
      · refine .register cmd sendQueue sendAt next fun limited => ?_
        exact Nat.lt_of_not_le fun full => room ⟨limited, full⟩

theorem does_finalizeSend (cfg : Config) (state : State) (now : Instant) :
    Does cfg state (finalizeSend state now) := by
  unfold finalizeSend
  split
  · exact .still
  · next ev sendEvents next =>
    rcases finalize_cases state _ _ with still | ⟨_, idle, takes⟩
    · exact still ▸ .still
    · exact takes ▸ .finalizeSend ev sendEvents now next idle

theorem does_finalizeMatch (cfg : Config) (state : State) :
    Does cfg state (finalizeMatch state) := by
  unfold finalizeMatch
  split
  · exact .still
  · next ev matchEvents next =>
    rcases finalize_cases state _ _ with still | ⟨_, idle, takes⟩
    · exact still ▸ .still
    · exact takes ▸ .finalizeMatch ev matchEvents next idle

theorem does_sweep (cfg : Config) (state : State) (now : Instant) :
    Does cfg state (sweep cfg state now) := by
  unfold sweep
  rcases finalize_cases state _ _ with still | ⟨_, idle, takes⟩
  · exact still ▸ .still
  · exact takes ▸ .giveUp _ state.drained idle

theorem does_drain (cfg : Config) (state : State) : Does cfg state (drain state) := by
  unfold drain
  rcases finalize_cases state _ _ with still | ⟨_, idle, takes⟩
  · exact still ▸ .still
  · exact takes ▸ .giveUp _ true idle

/-- **Every step does one of these.** -/
theorem does_step (cfg : Config) (state : State) (input : Input) :
    Does cfg state (step cfg state input) := by
  cases input with
  | observe obs =>
    change Does cfg state (observe cfg state obs)
    unfold observe
    split
    · next idle through => exact .observe obs _ _ _ rfl idle through
    · exact .still
  | offer accepted =>
    change Does cfg state (offer state accepted)
    unfold offer
    split
    · exact .still
    · next effect offers next => exact .offer effect offers _ next
  | lookUp =>
    change Does cfg state (lookUp state)
    unfold lookUp
    split
    · next ev lookups idle next => exact .lookUp ev lookups idle next
    · exact .still
  | insert | take | pruneOlderThan => exact .pool _
  | dispatch now sendAt => exact does_dispatch cfg state now sendAt
  | respond index result responseAt accepted =>
    change Does cfg state (respond state index result responseAt accepted)
    unfold respond
    split
    · exact .still
    · next request found =>
      exact .respond index request result responseAt _ found fun taken =>
        by simpa using (Bool.and_eq_true_iff.mp taken).2
  | finalizeSend now => exact does_finalizeSend cfg state now
  | finalizeMatch => exact does_finalizeMatch cfg state
  | sweep now => exact does_sweep cfg state now
  | drain => exact does_drain cfg state
  | emit accepted =>
    change Does cfg state (emit state accepted)
    unfold emit
    split
    · exact .still
    · next effect emissions next => exact .emit effect emissions accepted next
  | hangUp =>
    change Does cfg state (hangUp state)
    unfold hangUp
    split
    · next drained idle => exact .hangUp idle
    · exact .still
  | ask =>
    change Does cfg state (ask cfg state)
    unfold ask
    split
    · next idle => exact .ask idle
    · exact .still
  | answer statuses =>
    change Does cfg state (answer state statuses)
    unfold answer
    split
    · exact .still
    · exact .answer _
    · exact .fail

end SendFlow

end SenderAnalysis.TickTriggerBench

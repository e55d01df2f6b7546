import SenderAnalysis.FanOut.Dispatcher

/-!
# The recorder

The recorder follows every attempt, a trigger and a sender, from its registration
to its one record. Three channels feed it: the registrations, the outcomes of the
sends, and the matches of the engine. Its `select` takes the next event from any
channel that has one, so the three kinds of events interleave in any order. An
attempt ends with a match, with an error of its send, or at its deadline; what is
left at the end of the run is recorded as pending. Next to the attempts a table
leads from the signatures to their attempts.

A match of a transaction with a durable nonce is also reported to the nonce
manager, with the next value if the cache of slot hashes knows it.
-/

set_option autoImplicit false

namespace SenderAnalysis

inductive FinalOutcome where
  | landed
  | sendError
  | unknownPending
deriving DecidableEq, Repr

/-- One row of the output. Signatures and hashes are given by their bytes, which the
output shows in base 58. -/
structure TriggerRecord where
  runId : String
  triggerId : TriggerId
  slot : Nat
  tick : Nat
  senderId : UInt8
  senderName : String
  endpointUrl : String
  protocol : String
  txSignature : Signature
  blockhash : Hash
  triggerObservedAtNs : Nat
  preparedAtNs : Nat
  sendAtNs : Nat
  sendAckAtNs : Option Nat
  observedAtNs : Option Nat
  wallPreparedToSendNs : Option Nat
  wallSendRttNs : Option Nat
  wallSendToObservedNs : Option Nat
  wallTriggerToObservedNs : Option Nat
  observedSlot : Option Nat
  observedEntryIndex : Option UInt32
  observedTick : Option Nat
  observedSource : Option String
  httpStatus : Option UInt16
  rpcErrCode : Option Int32
  rpcErrMessage : Option String
  sendError : Option String
  endpointUrlUsed : Option String
  providerRequestId : Option String
  finalOutcome : FinalOutcome
deriving DecidableEq, Repr

namespace Recorder

/-- The counters of the recorder. Rows that cannot be written are counted by the
file's answer and not here. -/
inductive Counter where
  | recordsLanded
  | recordsSendError
  | recordsUnknownPending
  | registerEvents
  | sendEvents
  | matchEvents
  | nonceAdvancedLocal
  | nonceLocalComputeMiss
deriving DecidableEq, Repr

/-- What the recorder gives out: a row for its file, or a call of the nonce
manager. -/
inductive Output where
  | record (row : TriggerRecord)
  | nonce (operation : NonceManager.Operation)
deriving DecidableEq, Repr

abbrev RecorderEffect := Effect Counter Output

/-- A trigger and a sender. -/
abbrev AttemptKey := TriggerId × UInt8

/-- The attempt a registration opens. -/
def keyOf (reg : RegisterEvent) : AttemptKey := (reg.triggerId, reg.senderId)

structure Config where
  runId : String
  anchor : Instant
  deadline : Duration
  nonceMode : Bool
  hashv : Hashv

structure TriggerAttempt where
  register : Option RegisterEvent
  send : Option SendEvent
  matched : Option MatchEvent
  deadlineAt : Instant
deriving DecidableEq, Repr

/-! ## Aggregates -/

/-- What is counted for one sender. -/
structure PerSenderStats where
  senderId : UInt8
  attempts : Nat := 0
  landed : Nat := 0
  sendError : Nat := 0
  unknownPending : Nat := 0
  sendRttUsSum : Nat := 0
  sendRttUsCount : Nat := 0
  sendToObservedUsSum : Nat := 0
  sendToObservedUsCount : Nat := 0
deriving DecidableEq, Repr

/-- What is counted for the whole run. -/
structure AggregateState where
  firstSendAt : Option Instant := none
  lastSendAt : Option Instant := none
  triggersAttempted : Finset TriggerId := ∅
  triggersLanded : Finset TriggerId := ∅
  perSender : HashTable UInt8 PerSenderStats := .empty
  attemptsTotal : Nat := 0
  attemptsLanded : Nat := 0
  attemptsSendError : Nat := 0
  attemptsUnknownPending : Nat := 0

namespace AggregateState

/-- The counts of a sender, fresh ones for a new sender. -/
def statsOf (agg : AggregateState) (senderId : UInt8) : PerSenderStats :=
  (agg.perSender.get senderId).getD { senderId := senderId }

def recordRegister (agg : AggregateState) (reg : RegisterEvent) : AggregateState :=
  let stats := agg.statsOf reg.senderId
  { agg with
    triggersAttempted := insert reg.triggerId agg.triggersAttempted
    perSender := agg.perSender.insert reg.senderId { stats with attempts := stats.attempts + 1 }
    attemptsTotal := agg.attemptsTotal + 1 }

/-- A duration in microseconds, as a 64-bit number. -/
def micros (duration : Duration) : Nat := duration / 1000 % 2 ^ 64

def recordSend (agg : AggregateState) (ev : SendEvent) : AggregateState :=
  let sendAt := ev.outcome.sendAt
  let agg := { agg with
    firstSendAt := some (match agg.firstSendAt with | none => sendAt | some t => min sendAt t)
    lastSendAt := some (match agg.lastSendAt with | none => sendAt | some t => max sendAt t) }
  match agg.perSender.get ev.senderId, ev.outcome.sendAckAt with
  | some stats, some ack =>
      let rttUs := micros (saturatingDurationSince ack sendAt)
      { agg with
        perSender := agg.perSender.insert ev.senderId { stats with
          sendRttUsSum := stats.sendRttUsSum + rttUs
          sendRttUsCount := stats.sendRttUsCount + 1 } }
  | _, _ => agg

def recordOutcome (agg : AggregateState) (triggerId : TriggerId) (senderId : UInt8)
    (outcome : FinalOutcome) (sendToObservedUs : Option Nat) : AggregateState :=
  let stats := agg.statsOf senderId
  match outcome with
  | .landed =>
      let stats := { stats with landed := stats.landed + 1 }
      let stats := match sendToObservedUs with
        | some us => { stats with
            sendToObservedUsSum := stats.sendToObservedUsSum + us
            sendToObservedUsCount := stats.sendToObservedUsCount + 1 }
        | none => stats
      { agg with
        perSender := agg.perSender.insert senderId stats
        attemptsLanded := agg.attemptsLanded + 1
        triggersLanded := insert triggerId agg.triggersLanded }
  | .sendError =>
      { agg with
        perSender := agg.perSender.insert senderId { stats with sendError := stats.sendError + 1 }
        attemptsSendError := agg.attemptsSendError + 1 }
  | .unknownPending =>
      { agg with
        perSender := agg.perSender.insert senderId
          { stats with unknownPending := stats.unknownPending + 1 }
        attemptsUnknownPending := agg.attemptsUnknownPending + 1 }

end AggregateState

/-! ## Records -/

/-- Nanoseconds since the anchor, as a 64-bit number. -/
def nsSince (cfg : Config) (t : Instant) : Nat := saturatingDurationSince t cfg.anchor % 2 ^ 64

/-- How a source is shown. -/
def sourceName : SourceKind → String
  | .shredStream => "SS"
  | .yellowstone => "YS"

/-- The row of an attempt. Without a send the time of the send is zero. -/
def makeRecord (cfg : Config) (reg : RegisterEvent) (send : Option SendEvent)
    (matched : Option MatchEvent) (outcome : FinalOutcome) : TriggerRecord :=
  let triggerObservedAtNs := nsSince cfg reg.triggerObservedAt
  let preparedAtNs := nsSince cfg reg.preparedAt
  let sendAtNs := (send.map fun s => nsSince cfg s.outcome.sendAt).getD 0
  let sendAckAtNs := send.bind fun s => s.outcome.sendAckAt.map (nsSince cfg)
  let observedAtNs := matched.map fun m => nsSince cfg m.observedAt
  { runId := cfg.runId
    triggerId := reg.triggerId
    slot := reg.slot
    tick := reg.tick
    senderId := reg.senderId
    senderName := reg.senderName
    endpointUrl := reg.endpointUrl
    protocol := reg.protocol
    txSignature := reg.signature
    blockhash := reg.blockhash
    triggerObservedAtNs := triggerObservedAtNs
    preparedAtNs := preparedAtNs
    sendAtNs := sendAtNs
    sendAckAtNs := sendAckAtNs
    observedAtNs := observedAtNs
    wallPreparedToSendNs := send.map fun _ => sendAtNs - preparedAtNs
    wallSendRttNs := send.bind fun _ => sendAckAtNs.map fun ackNs => ackNs - sendAtNs
    wallSendToObservedNs := send.bind fun _ => observedAtNs.map fun obsNs => obsNs - sendAtNs
    wallTriggerToObservedNs := observedAtNs.map fun obsNs => obsNs - triggerObservedAtNs
    observedSlot := matched.map MatchEvent.observedSlot
    observedEntryIndex := matched.map MatchEvent.observedEntryIndex
    observedTick := matched.map MatchEvent.observedTick
    observedSource := matched.map fun m => sourceName m.observedSource
    httpStatus := send.bind fun s => s.outcome.httpStatus
    rpcErrCode := send.bind fun s => s.outcome.rpcErrCode
    rpcErrMessage := send.bind fun s => s.outcome.rpcErrMessage
    sendError := send.bind fun s => s.outcome.error
    endpointUrlUsed := send.bind fun s => s.outcome.endpointUrlUsed
    providerRequestId := send.bind fun s => s.outcome.providerRequestId
    finalOutcome := outcome }

def countOutcome : FinalOutcome → RecorderEffect
  | .landed => .fetchAdd .recordsLanded 1
  | .sendError => .fetchAdd .recordsSendError 1
  | .unknownPending => .fetchAdd .recordsUnknownPending 1

/-- Write the row of an attempt that was registered. -/
def emitRecord (cfg : Config) (att : TriggerAttempt) (outcome : FinalOutcome) :
    List RecorderEffect :=
  match att.register with
  | none => []
  | some reg =>
      [countOutcome outcome, .trySend (.record (makeRecord cfg reg att.send att.matched outcome))]

/-! ## Events -/

/-- The state of the recorder's thread. -/
structure State where
  attempts : HashTable AttemptKey TriggerAttempt := .empty
  sigToKey : HashTable Signature AttemptKey := .empty
  agg : AggregateState := {}

/-- End an attempt: forget it and its signature, write its row and count it. -/
def closeAttempt (cfg : Config) (outcome : FinalOutcome) (recorder : State) (key : AttemptKey) :
    State × List RecorderEffect :=
  match recorder.attempts.get key with
  | none => (recorder, [])
  | some att =>
      let sendToObservedUs :=
        match outcome, att.send, att.matched with
        | .landed, some s, some m =>
            some (AggregateState.micros (saturatingDurationSince m.observedAt s.outcome.sendAt))
        | _, _, _ => none
      (match att.register with
        | none => { recorder with attempts := recorder.attempts.remove key }
        | some reg =>
            { attempts := recorder.attempts.remove key
              sigToKey := recorder.sigToKey.remove reg.signature
              agg := recorder.agg.recordOutcome reg.triggerId reg.senderId outcome
                sendToObservedUs },
        emitRecord cfg att outcome)

/-- Open an attempt. -/
def handleRegister (cfg : Config) (recorder : State) (reg : RegisterEvent) : State :=
  { recorder with
    sigToKey := recorder.sigToKey.insert reg.signature (keyOf reg)
    attempts := recorder.attempts.insert (keyOf reg) {
      register := some reg
      send := none
      matched := none
      deadlineAt := reg.triggerObservedAt + cfg.deadline } }

/-- Note the outcome of a send; an error ends the attempt. -/
def handleSend (cfg : Config) (recorder : State) (s : SendEvent) : State × List RecorderEffect :=
  let key := (s.triggerId, s.senderId)
  match recorder.attempts.get key with
  | none => (recorder, [])
  | some att =>
      let noted := { recorder with
        attempts := recorder.attempts.insert key { att with send := some s } }
      if s.outcome.error.isSome then closeAttempt cfg .sendError noted key
      else (noted, [])

/-- Report a match to the nonce manager. -/
def nonceHook (cfg : Config) (cache : Option SlotHashCache) (att : TriggerAttempt)
    (m : MatchEvent) (now : Instant) : List RecorderEffect :=
  match cfg.nonceMode, cache, att.register.bind RegisterEvent.nonceId with
  | true, some cache, some nonceId =>
      match cache.nextNonceForLandedSlot cfg.hashv m.observedSlot 5 with
      | some (_, _, nextNonce) =>
          [.trySend (.nonce (.onLandingWithBlockhash nonceId nextNonce)),
            .fetchAdd .nonceAdvancedLocal 1]
      | none =>
          [.trySend (.nonce (.onObservedLanding nonceId now)),
            .fetchAdd .nonceLocalComputeMiss 1]
  | _, _, _ => []

/-- A match ends its attempt. -/
def handleMatch (cfg : Config) (recorder : State) (m : MatchEvent) (cache : Option SlotHashCache)
    (now : Instant) : State × List RecorderEffect :=
  match recorder.sigToKey.get m.signature with
  | none => (recorder, [])
  | some key =>
      match recorder.attempts.get key with
      | none => ({ recorder with sigToKey := recorder.sigToKey.remove m.signature }, [])
      | some att =>
          let noted := { recorder with
            attempts := recorder.attempts.insert key { att with matched := some m } }
          let closed := closeAttempt cfg .landed noted key
          (closed.1, nonceHook cfg cache att m now ++ closed.2)

/-- The attempts past their deadline. -/
def expired (recorder : State) (now : Instant) : List AttemptKey :=
  (recorder.attempts.entries.filter fun entry => entry.2.deadlineAt ≤ now).map Sigma.fst

/-- End the attempts past their deadline. -/
def sweepDeadlines (cfg : Config) (recorder : State) (now : Instant) :
    State × List RecorderEffect :=
  runAll (closeAttempt cfg .unknownPending) recorder (expired recorder now)

/-- The last flush: every attempt that is left is pending. -/
def flush (cfg : Config) (recorder : State) : State × List RecorderEffect :=
  runAll (closeAttempt cfg .unknownPending) recorder (recorder.attempts.entries.map Sigma.fst)

/-! ## Runs -/

/-- What the recorder's thread does next: it receives an event from one of the
channels, a match with the cache of that moment, or it sweeps. -/
inductive Input where
  | register (reg : RegisterEvent)
  | send (s : SendEvent)
  | matched (m : MatchEvent) (cache : Option SlotHashCache) (now : Instant)
  | sweep (now : Instant)

/-- One input. -/
def step (cfg : Config) (recorder : State) : Input → State × List RecorderEffect
  | .register reg =>
      (handleRegister cfg { recorder with agg := recorder.agg.recordRegister reg } reg,
        [.fetchAdd .registerEvents 1])
  | .send s =>
      let handled := handleSend cfg { recorder with agg := recorder.agg.recordSend s } s
      (handled.1, .fetchAdd .sendEvents 1 :: handled.2)
  | .matched m cache now =>
      let handled := handleMatch cfg recorder m cache now
      (handled.1, .fetchAdd .matchEvents 1 :: handled.2)
  | .sweep now => sweepDeadlines cfg recorder now

/-- The inputs up to the stop, and the last flush. -/
def runLoop (cfg : Config) (inputs : List Input) : State × List RecorderEffect :=
  let before := runAll (step cfg) {} inputs
  let flushed := flush cfg before.1
  (flushed.1, before.2 ++ flushed.2)

def Output.record? : Output → Option TriggerRecord
  | .record row => some row
  | .nonce _ => none

/-- The rows of a run, in the order they are written. -/
def records (effects : List RecorderEffect) : List TriggerRecord :=
  (sent effects).filterMap Output.record?

end Recorder

end SenderAnalysis

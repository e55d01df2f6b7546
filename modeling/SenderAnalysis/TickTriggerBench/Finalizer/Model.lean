import SenderAnalysis.EntrySources.Observation
import SenderAnalysis.Foundations.Effects
import SenderAnalysis.Foundations.HashTables
import SenderAnalysis.Foundations.SelectLoops

/-!
# The finalizer of the single-sender bench

The finalizer of `tick-trigger-bench` pairs the outcome of a send with the match of its
signature. A match may arrive before its send; it is kept until the send comes. A send
whose match does not come in time is given up at a sweep, and what is pending when the
loop ends is flushed. Each of these yields one final record. A record that the queue
behind the finalizer refuses is counted there instead.
-/

set_option autoImplicit false

namespace SenderAnalysis.TickTriggerBench

/-- A transaction that was sent. -/
structure SendEvent where
  signature : Signature
  scheduleSlot : Nat
  scheduleTick : UInt8
  triggerObservedAt : Instant
  sendAt : Instant
  responseAt : Instant
  error : Option String
deriving DecidableEq, Repr

/-- A transaction that was seen on chain. -/
structure MatchEvent where
  signature : Signature
  observedAt : Instant
  observedSlot : Nat
  observedEntryIndex : UInt32
  observedTickInSlot : Option UInt8
  observedCumulativeHashesInSlot : Option Nat
deriving DecidableEq, Repr

/-- A send without a final record. -/
structure PendingRecord where
  send : SendEvent
  matchEvent : Option MatchEvent
  insertedAt : Instant
deriving DecidableEq, Repr

/-- How a send ended. -/
inductive Status where
  | observed
  | unknownPending
deriving DecidableEq, Repr

structure FinalRecord where
  send : SendEvent
  matchEvent : Option MatchEvent
  status : Status
deriving DecidableEq, Repr

namespace Finalizer

/-- What the finalizer gives out: a record for the queue of final records, a signature
that nothing waits for any more, and one whose fate the RPC is asked for. -/
inductive Output where
  | final (record : FinalRecord)
  | removePending (sig : Signature)
  | pushFallback (sig : Signature)
deriving DecidableEq, Repr

/-- The finalizer counts nothing itself. -/
inductive Counter
deriving DecidableEq, Repr

abbrev FinalizerEffect := Effect Counter Output

structure State where
  map : HashTable Signature PendingRecord := .empty
  earlyMatches : HashTable Signature MatchEvent := .empty

/-- Give out the record of a send whose match is known. -/
def emitObserved (sig : Signature) (p : PendingRecord) : List FinalizerEffect :=
  [.trySend (.removePending sig), .trySend (.final ⟨p.send, p.matchEvent, .observed⟩)]

/-- Give out the record of a pending send. -/
def emitFinal (sig : Signature) (p : PendingRecord) : List FinalizerEffect :=
  let status := if p.matchEvent.isSome then Status.observed else .unknownPending
  .trySend (.removePending sig) ::
    ((if status = .unknownPending then [.trySend (.pushFallback sig)] else []) ++
      [.trySend (.final ⟨p.send, p.matchEvent, status⟩)])

/-- A send event. -/
def handleSend (finalizer : State) (ev : SendEvent) (now : Instant) :
    State × List FinalizerEffect :=
  let sig := ev.signature
  let matchEvent := finalizer.earlyMatches.get sig
  let earlyMatches := finalizer.earlyMatches.remove sig
  let p := (finalizer.map.get sig).getD ⟨ev, matchEvent, now⟩
  if matchEvent.isSome then
    ({ map := finalizer.map.remove sig, earlyMatches := earlyMatches }, emitObserved sig p)
  else ({ map := finalizer.map.insert sig p, earlyMatches := earlyMatches }, [])

/-- A match event. -/
def handleMatch (finalizer : State) (ev : MatchEvent) : State × List FinalizerEffect :=
  let sig := ev.signature
  match finalizer.map.get sig with
  | some p =>
      ({ finalizer with map := finalizer.map.remove sig },
        emitObserved sig { p with matchEvent := some ev })
  -- The send event is not seen yet; the match waits for it.
  | none => ({ finalizer with earlyMatches := finalizer.earlyMatches.insert sig ev }, [])

/-- Give up a pending send. -/
def giveUp (finalizer : State) (sig : Signature) : State × List FinalizerEffect :=
  match finalizer.map.get sig with
  | none => (finalizer, [])
  | some p => ({ finalizer with map := finalizer.map.remove sig }, emitFinal sig p)

/-- The sends that have waited for longer than the deadline. -/
def stale (deadline : Duration) (finalizer : State) (now : Instant) : List Signature :=
  (finalizer.map.entries.filter fun entry =>
    deadline < saturatingDurationSince now entry.2.insertedAt).map Sigma.fst

def sweep (deadline : Duration) (finalizer : State) (now : Instant) :
    State × List FinalizerEffect :=
  runAll giveUp finalizer (stale deadline finalizer now)

/-- The last flush. -/
def drain (finalizer : State) : State × List FinalizerEffect :=
  runAll giveUp finalizer (finalizer.map.entries.map Sigma.fst)

/-! ## The thread -/

inductive Channel where
  | send
  | matched
deriving DecidableEq, Repr

inductive Event where
  | send (ev : SendEvent)
  | matched (ev : MatchEvent)
deriving DecidableEq, Repr

def Event.channel : Event → Channel
  | send _ => .send
  | matched _ => .matched

/-- What one round of the loop gives to the handlers, with the time of it. -/
def step (deadline : Duration) (finalizer : State) :
    Taken Event Instant → State × List FinalizerEffect
  | .event (.send ev) now => handleSend finalizer ev now
  | .event (.matched ev) _ => handleMatch finalizer ev
  | .sweep now => sweep deadline finalizer now

/-- The loop heeds the stop flag when nothing is pending, and ends when the senders of the
send events are gone. -/
def finalizeLoop (deadline : Duration) :
    SelectLoop State Channel Event Instant FinalizerEffect where
  initial := {}
  channelOf := Event.channel
  handle := step deadline
  mayStop finalizer := finalizer.map.entries.isEmpty
  hangsUp channel := channel = .send

/-- All that the finalizer gives out in a run that has ended, with the last flush. -/
def effectsOf (deadline : Duration) (acts : List (SelectLoop.Act Channel Event Instant)) :
    List FinalizerEffect :=
  let ended := runAll (step deadline) {} ((finalizeLoop deadline).run acts).2
  ended.2 ++ (drain ended.1).2

def Output.final? : Output → Option FinalRecord
  | final record => some record
  | removePending _ | pushFallback _ => none

/-- The final records, in order. -/
def records (effects : List FinalizerEffect) : List FinalRecord :=
  (sent effects).filterMap Output.final?

end Finalizer

end SenderAnalysis.TickTriggerBench

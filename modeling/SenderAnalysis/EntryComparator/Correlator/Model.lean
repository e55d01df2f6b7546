import SenderAnalysis.EntrySources.Observation
import SenderAnalysis.Foundations.Effects
import SenderAnalysis.Foundations.HashTables
import SenderAnalysis.Foundations.Runs

/-!
# The correlator of the entry comparator

The correlator gets the observations of both sources and pairs those of one entry, where
an entry is a slot and a hash. When both sources have delivered an entry, a record of
both is written. An entry that waits for the other source for longer than the deadline is
written with one source only, and so is what is left when the correlator ends.

The record takes its times from the observations as offsets from an anchor, as 64-bit
numbers of nanoseconds.
-/

set_option autoImplicit false

namespace SenderAnalysis.EntryComparator

/-- Which of the sources delivered an entry. -/
inductive Source where
  | both
  | ysOnly
  | ssOnly
deriving DecidableEq, Repr

/-- The comparison of one entry. -/
structure DiffRecord where
  slot : Nat
  entryIndex : UInt32
  numHashes : Nat
  source : Source
  ysObservedNs : Option Nat
  ssFirstShredNs : Option Nat
  ssFecCompleteNs : Option Nat
  ysHash : Option Hash
  ssHash : Option Hash
  ysTxCount : Option UInt32
  ssTxCount : Option UInt32
  hashMatch : Bool
  sigSetMatch : Option Bool
  leaderPubkey : Option Pubkey
  ysSignatures : List Signature
  ssSignatures : List Signature
deriving DecidableEq, Repr

namespace Correlator

/-- An entry is known by its slot and its hash. -/
abbrev EntryKey := Nat × Hash

/-- What was received of an entry. -/
structure MatchState where
  yellowstone : Option EntryObservation := none
  shredstream : Option EntryObservation := none
  insertedAt : Instant
deriving DecidableEq, Repr

structure Config where
  anchor : Instant
  deadline : Duration
  leaderLookup : Nat → Option Pubkey

/-- What the correlator gives out: a record, or a panic where the source declares that it
cannot be reached. -/
inductive Output where
  | record (rec : DiffRecord)
  | unreachable
deriving DecidableEq, Repr

/-- The correlator counts nothing itself; a record that the writer's queue refuses is
counted there. -/
inductive Counter
deriving DecidableEq, Repr

abbrev CorrelatorEffect := Effect Counter Output

/-- Nanoseconds since the anchor, as a 64-bit number. -/
def nsSince (cfg : Config) (t : Instant) : Nat := saturatingDurationSince t cfg.anchor % 2 ^ 64

/-- Signatures in the order of their bytes. -/
def sortSignatures (signatures : List Signature) : List Signature :=
  signatures.mergeSort fun first second => decide (first.toList ≤ second.toList)

def sourceOf : Option EntryObservation → Option EntryObservation → Option Source
  | some _, some _ => some .both
  | some _, none => some .ysOnly
  | none, some _ => some .ssOnly
  | none, none => none

def hashMatch : Option EntryObservation → Option EntryObservation → Bool
  | some y, some s => y.entryHash == s.entryHash
  | _, _ => false

/-- Whether the signatures are the same, when both sources carry some. -/
def sigSetMatch : Option EntryObservation → Option EntryObservation → Option Bool
  | some y, some s =>
      if !y.signatures.isEmpty && !s.signatures.isEmpty then
        some (sortSignatures y.signatures == sortSignatures s.signatures)
      else none
  | _, _ => none

/-- The record of an entry, when any source delivered it. -/
def recordOf (cfg : Config) (st : MatchState) : Option DiffRecord :=
  let ys := st.yellowstone
  let ss := st.shredstream
  (sourceOf ys ss).bind fun source =>
    (ys.or ss).map fun any =>
      { slot := any.slot
        entryIndex := any.entryIndex
        numHashes := any.numHashes
        source := source
        ysObservedNs := ys.map fun y => nsSince cfg y.observedAt
        ssFirstShredNs := (ss.bind EntryObservation.firstShredAt).map (nsSince cfg)
        ssFecCompleteNs := ss.map fun s => nsSince cfg s.observedAt
        ysHash := ys.map EntryObservation.entryHash
        ssHash := ss.map EntryObservation.entryHash
        ysTxCount := ys.map EntryObservation.txCount
        ssTxCount := ss.map EntryObservation.txCount
        hashMatch := hashMatch ys ss
        sigSetMatch := sigSetMatch ys ss
        leaderPubkey := cfg.leaderLookup any.slot
        ysSignatures := (ys.map EntryObservation.signatures).getD []
        ssSignatures := (ss.map EntryObservation.signatures).getD [] }

def emit (cfg : Config) (st : MatchState) : List CorrelatorEffect :=
  match recordOf cfg st with
  | some rec => [.trySend (.record rec)]
  | none => [.trySend .unreachable]

abbrev MatchMap := HashTable EntryKey MatchState

/-- The key an observation is filed under. -/
def keyOf (obs : EntryObservation) : EntryKey := (obs.slot, obs.entryHash)

/-- Put an observation on the side of its source. -/
def MatchState.note (st : MatchState) (obs : EntryObservation) : MatchState :=
  match obs.source with
  | .yellowstone => { st with yellowstone := some obs }
  | .shredStream => { st with shredstream := some obs }

/-- Both sources have delivered the entry. -/
def MatchState.paired (st : MatchState) : Bool := st.yellowstone.isSome && st.shredstream.isSome

/-- An observation. -/
def handle (cfg : Config) (map : MatchMap) (obs : EntryObservation) (now : Instant) :
    MatchMap × List CorrelatorEffect :=
  let key := keyOf obs
  let entry := ((map.get key).getD { insertedAt := now }).note obs
  if entry.paired then (map.remove key, emit cfg entry) else (map.insert key entry, [])

/-- Write an entry that waits and forget it. -/
def expire (cfg : Config) (map : MatchMap) (key : EntryKey) : MatchMap × List CorrelatorEffect :=
  match map.get key with
  | none => (map, [])
  | some st => (map.remove key, emit cfg st)

/-- The entries that have waited for the deadline. -/
def stale (deadline : Duration) (map : MatchMap) (now : Instant) : List EntryKey :=
  (map.entries.filter fun entry =>
    deadline ≤ saturatingDurationSince now entry.2.insertedAt).map Sigma.fst

def sweep (cfg : Config) (deadline : Duration) (map : MatchMap) (now : Instant) :
    MatchMap × List CorrelatorEffect :=
  runAll (expire cfg) map (stale deadline map now)

/-! ## The loop -/

/-- What the loop keeps. -/
structure State where
  map : MatchMap := .empty
  lastSweep : Instant

/-- One turn of the loop: the observation received, if any, with the clock when it is
handled, and the clock at the end of the turn. -/
structure Turn where
  received : Option (EntryObservation × Instant)
  now : Instant
deriving DecidableEq, Repr

/-- Sweeps are more than this time apart: 250 ms. -/
def sweepInterval : Duration := 250000000

/-- A sweep is due. -/
def SweepDue (lastSweep now : Instant) : Prop :=
  sweepInterval < saturatingDurationSince now lastSweep

instance (lastSweep now : Instant) : Decidable (SweepDue lastSweep now) :=
  inferInstanceAs (Decidable (_ < _))

def receive (cfg : Config) (map : MatchMap) : Option (EntryObservation × Instant) →
    MatchMap × List CorrelatorEffect
  | some (obs, now) => handle cfg map obs now
  | none => (map, [])

/-- One turn of the loop. -/
def step (cfg : Config) (corr : State) (turn : Turn) : State × List CorrelatorEffect :=
  let received := receive cfg corr.map turn.received
  if SweepDue corr.lastSweep turn.now then
    let swept := sweep cfg cfg.deadline received.1 turn.now
    ({ map := swept.1, lastSweep := turn.now }, received.2 ++ swept.2)
  else ({ corr with map := received.1 }, received.2)

/-- The last flush. -/
def finish (cfg : Config) (corr : State) (now : Instant) : MatchMap × List CorrelatorEffect :=
  sweep cfg 0 corr.map now

/-- The turns of the loop, from its start. -/
def runTurns (cfg : Config) (startedAt : Instant) (turns : List Turn) :
    State × List CorrelatorEffect :=
  runAll (step cfg) { lastSweep := startedAt } turns

/-- All that the correlator gives out, with the last flush. -/
def outputs (cfg : Config) (startedAt : Instant) (turns : List Turn) (endedAt : Instant) :
    List Output :=
  sent ((runTurns cfg startedAt turns).2 ++
    (finish cfg (runTurns cfg startedAt turns).1 endedAt).2)

def Output.record? : Output → Option DiffRecord
  | record rec => some rec
  | unreachable => none

/-- The records of a run, in order. -/
def records (cfg : Config) (startedAt : Instant) (turns : List Turn) (endedAt : Instant) :
    List DiffRecord :=
  (outputs cfg startedAt turns endedAt).filterMap Output.record?

end Correlator

end SenderAnalysis.EntryComparator

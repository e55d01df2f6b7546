import Mathlib.Data.Finset.Card
import Mathlib.Data.Finset.Lattice.Lemmas
import Mathlib.Data.List.Sort
import SenderAnalysis.FanOut.Recorder.Model
import SenderAnalysis.FanOut.Samples
import SenderAnalysis.Foundations.Modes

/-!
# Loading the results of a run

The analysis reads the rows that the recorder wrote into a frame. The statistics compare
senders trigger by trigger, so a frame must be paired: every trigger has one row of every
sender, and at most one of its rows landed. Two cleaning steps come before that is
asserted. The first keeps the triggers with the full set of senders. What is full is found
from the number of senders that most triggers have, as the union of the senders of the
triggers with that number. The second drops the triggers that landed more than once.

An exception is the absence of a result.
-/

set_option autoImplicit false

namespace SenderAnalysis.FanoutAnalysis

/-- The rows of a run, or some of them. -/
abbrev Frame := List TriggerRecord

namespace Frame

/-- The rows of a trigger. -/
def group (df : Frame) (trigger : TriggerId) : Frame :=
  df.filter fun row => row.triggerId = trigger

/-- The triggers that have rows. -/
def triggers (df : Frame) : List TriggerId := (df.map TriggerRecord.triggerId).dedup

/-- The senders that have rows. -/
def senders (df : Frame) : Finset String := (df.map TriggerRecord.senderName).toFinset

/-- The senders of a trigger. -/
def sendersOf (df : Frame) (trigger : TriggerId) : Finset String := (df.group trigger).senders

/-- The rows that landed. -/
def landed (df : Frame) : Frame := df.filter fun row => row.finalOutcome = .landed

/-- Signatures are one to one with rows. -/
def UniqueSignatures (df : Frame) : Prop := (df.map TriggerRecord.txSignature).Nodup

instance (df : Frame) : Decidable df.UniqueSignatures := inferInstanceAs (Decidable (List.Nodup _))

/-- The number of senders that most triggers have, the least one if there are several. -/
def modal (df : Frame) : Option Nat :=
  mode (df.triggers.map fun trigger => (df.sendersOf trigger).card)

/-- The senders of the triggers with a number of senders. -/
def full (df : Frame) (modal : Nat) : Finset String :=
  let refIds := df.triggers.filter fun trigger => (df.sendersOf trigger).card = modal
  senders (df.filter fun row => row.triggerId ∈ refIds)

/-- Keep the triggers with the full set of senders. The second part of the result is the
number of triggers that are dropped. -/
def dropIncompleteTriggers (df : Frame) : Option (Frame × Nat) :=
  df.modal.map fun modal =>
    let keep := df.triggers.filter fun trigger => df.sendersOf trigger = df.full modal
    (df.filter fun row => row.triggerId ∈ keep, df.triggers.length - keep.length)

/-- Drop the triggers that landed more than once. -/
def dropMultilandTriggers (df : Frame) : Frame × Nat :=
  let bad := (triggers df.landed).filter fun trigger => (group df.landed trigger).length > 1
  (df.filter fun row => row.triggerId ∉ bad, bad.length)

/-- The numbers of rows that triggers have. -/
def sizes (df : Frame) : List Nat :=
  (df.triggers.map fun trigger => (df.group trigger).length).dedup.insertionSort (· ≤ ·)

/-- What is asserted of a frame: every trigger has as many rows as there are senders,
signatures are unique, and no trigger landed more than once. -/
def AssertPaired (df : Frame) : Prop :=
  df.sizes = [df.senders.card] ∧ df.UniqueSignatures ∧
    ∀ trigger ∈ df.triggers, (landed (df.group trigger)).length ≤ 1

instance (df : Frame) : Decidable df.AssertPaired := inferInstanceAs (Decidable (_ ∧ _))

end Frame

/-- A frame that passed the assertion, with the numbers of triggers that were dropped. -/
structure PairedFrame where
  rows : Frame
  paired : rows.AssertPaired
  droppedIncompleteTriggers : Nat
  droppedMultilandTriggers : Nat

/-- Clean a frame and assert that it is paired. -/
def loadLong (raw : Frame) (dropIncomplete dropMultiland : Bool) : Option PairedFrame :=
  (if dropIncomplete then raw.dropIncompleteTriggers else some (raw, 0)).bind fun (df, inc) =>
    let (df, ml) := if dropMultiland then df.dropMultilandTriggers else (df, 0)
    if paired : df.AssertPaired then some ⟨df, paired, inc, ml⟩ else none

/-! ## Senders -/

/-- What is known of a sender. -/
structure SenderMeta where
  protocolClass : String
  regionCity : String
  popLabel : String
deriving DecidableEq, Repr

/-- The senders of the analysis. -/
def senderMeta : List (String × SenderMeta) :=
  [("helius-dual", ⟨"HTTP_JSONRPC", "Frankfurt", "helius-fra"⟩),
    ("helius-fra", ⟨"HTTP_JSONRPC", "Frankfurt", "helius-fra"⟩),
    ("jito-multi", ⟨"JITO", "Frankfurt", "jito-multiregion"⟩),
    ("triton-fra", ⟨"RELAY", "Frankfurt", "triton-fra"⟩),
    ("syncro-fra", ⟨"RELAY", "Frankfurt", "syncro-fra"⟩),
    ("0slot-de1", ⟨"RELAY", "Frankfurt", "0slot-de1"⟩),
    ("blockrazor", ⟨"RELAY", "Frankfurt", "blockrazor-fra"⟩),
    ("allenhark-quic-fra", ⟨"QUIC_TPU", "Frankfurt", "allenhark-fra"⟩),
    ("allenhark-quic-ams", ⟨"QUIC_TPU", "Amsterdam", "allenhark-ams"⟩),
    ("allenhark-quic-ny", ⟨"QUIC_TPU", "New York", "allenhark-ny"⟩),
    ("allenhark-quic-tk", ⟨"QUIC_TPU", "Tokyo", "allenhark-tk"⟩),
    ("astralane-fra", ⟨"RELAY", "Frankfurt", "astralane-fra"⟩),
    ("astralane-quic-fra", ⟨"QUIC_TPU", "Frankfurt", "astralane-quic-fra"⟩),
    ("bloxroute-fra", ⟨"RELAY", "Frankfurt", "bloxroute-fra"⟩),
    ("bloxroute-quic-fra", ⟨"QUIC_TPU", "Frankfurt", "bloxroute-quic-fra"⟩),
    ("nextblock-quic-fra", ⟨"QUIC_TPU", "Frankfurt", "nextblock-quic-fra"⟩),
    ("nozomi-fra", ⟨"RELAY", "Frankfurt", "nozomi-fra"⟩)]

/-- The protocol of a sender that is known. -/
def protocolOf (sender : String) : Option String :=
  (senderMeta.lookup sender).map SenderMeta.protocolClass

/-- A row of a sample run. It was sent, and nothing came back. -/
def sampleRow (trigger : Nat) (sender : String) (tag : UInt8) (outcome : FinalOutcome) :
    TriggerRecord where
  runId := "run"
  triggerId := ⟨trigger⟩
  slot := 100
  tick := 5
  senderId := tag
  senderName := sender
  endpointUrl := "http://x"
  protocol := "http"
  txSignature := Samples.signature tag
  blockhash := Hash.default
  triggerObservedAtNs := 2000
  preparedAtNs := 1000
  sendAtNs := 3000
  sendAckAtNs := none
  observedAtNs := none
  wallPreparedToSendNs := some 2000
  wallSendRttNs := none
  wallSendToObservedNs := none
  wallTriggerToObservedNs := none
  observedSlot := none
  observedEntryIndex := none
  observedTick := none
  observedSource := none
  httpStatus := none
  rpcErrCode := none
  rpcErrMessage := none
  sendError := none
  endpointUrlUsed := none
  providerRequestId := none
  finalOutcome := outcome

end SenderAnalysis.FanoutAnalysis

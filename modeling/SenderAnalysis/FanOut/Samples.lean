import SenderAnalysis.FanOut.PohSupervisor.Model

/-!
# Sample entries

The observations, merged entries and the configuration that concrete runs of the
supervisor are made of. The tests of the supervisor build them with the same
helpers; where a test draws a fresh hash, the hash is given here by its first
byte.
-/

set_option autoImplicit false

namespace SenderAnalysis.Samples

/-- A hash that is told apart by one byte. -/
def hash (tag : UInt8) : Hash := Hash.default.set 0 tag

/-- A signature that is told apart by one byte. -/
def signature (tag : UInt8) : Signature := (Vector.replicate 64 0).set 0 tag

/-- A ShredStream observation. -/
def obs (slot : Nat) (idx : UInt32) (numHashes : Nat) (txCount : UInt32) (tag : UInt8) :
    EntryObservation where
  source := .shredStream
  observedAt := 0
  slot := slot
  entryIndex := idx
  numHashes := numHashes
  entryHash := hash tag
  txCount := txCount
  signatures := []
  firstShredAt := none
  leader := none

/-- A merged entry, first seen on ShredStream. -/
def merged (slot : Nat) (idx : UInt32) (numHashes : Nat) (txCount : UInt32) (tag : UInt8) :
    MergedEntry :=
  ⟨obs slot idx numHashes txCount tag, .shredStream⟩

/-- The configuration of the supervisor's tests. -/
def cfgWith (entryTimeout : Duration) : PohSupervisor.Config where
  entryTimeout := entryTimeout
  slotSealLagSlots := 3
  maxPendingPerSlot := 1024
  tickCheckInterval := 5000000

end SenderAnalysis.Samples

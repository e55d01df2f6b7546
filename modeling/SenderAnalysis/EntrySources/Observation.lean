import Mathlib.Algebra.Ring.Nat
import Mathlib.Data.List.Basic

/-!
# Entry observations and the Yellowstone source

An observation is one sighting of a ledger entry by one source. ShredStream
observations carry the signatures of the entry's transactions; the Yellowstone
feed has no transaction bytes, so what `decodeEntry` makes of its updates carries
none.

Slots, hash counts and instants are natural numbers; an instant is a count of
nanoseconds. The entry index and the transaction count keep their 32-bit type,
because the index is stepped with wrapping addition and both are truncated from
64 bits when a Yellowstone update is decoded.
-/

set_option autoImplicit false

namespace SenderAnalysis

/-- The bytes of a hash. -/
abbrev Hash := Vector UInt8 32

/-- The bytes of a public key. -/
abbrev Pubkey := Vector UInt8 32

/-- The bytes of a transaction signature. -/
abbrev Signature := Vector UInt8 64

/-- The default hash: all bytes zero. -/
def Hash.default : Hash := Vector.replicate 32 0

/-- A point in time, in nanoseconds. -/
abbrev Instant := Nat

/-- A length of time, in nanoseconds. -/
abbrev Duration := Nat

/-- The elapsed time, zero when the earlier instant is the later one. -/
def saturatingDurationSince (now earlier : Instant) : Duration := now - earlier

/-- Addition of unsigned integers that stops at the greatest one. -/
def saturatingAdd (bits first second : Nat) : Nat := min (first + second) (2 ^ bits - 1)

/-- The two sources of entries. -/
inductive SourceKind where
  | yellowstone
  | shredStream
deriving DecidableEq, Repr

/-- One sighting of an entry. -/
structure EntryObservation where
  source : SourceKind
  observedAt : Instant
  slot : Nat
  entryIndex : UInt32
  numHashes : Nat
  entryHash : Hash
  txCount : UInt32
  signatures : List Signature
  firstShredAt : Option Instant
  leader : Option Pubkey
deriving DecidableEq, Repr

/-- An entry without transactions is a tick. -/
def EntryObservation.isTick (observation : EntryObservation) : Bool := observation.txCount == 0

/-! ## Yellowstone updates -/

/-- An entry update of the Yellowstone feed. -/
structure SubscribeUpdateEntry where
  slot : Nat
  index : UInt64
  numHashes : Nat
  hash : List UInt8
  executedTransactionCount : UInt64
deriving DecidableEq, Repr

/-- The hash with the given bytes, when there are 32 of them. -/
def Hash.tryFrom (bytes : List UInt8) : Option Hash :=
  if size : bytes.length = 32 then some ⟨bytes.toArray, by simpa using size⟩ else none

/-- Turn an update into an observation. -/
def decodeEntry (update : SubscribeUpdateEntry) (observedAt : Instant) : EntryObservation where
  source := .yellowstone
  observedAt := observedAt
  slot := update.slot
  entryIndex := update.index.toUInt32
  numHashes := update.numHashes
  entryHash := (Hash.tryFrom update.hash).getD Hash.default
  txCount := update.executedTransactionCount.toUInt32
  signatures := []
  firstShredAt := none
  leader := none

end SenderAnalysis

import Mathlib.Data.Finset.Card
import Mathlib.Data.List.Sort
import SenderAnalysis.EntrySources.ShredStream.Entries

/-!
# The tracker of FEC sets

The entries of a slot travel in shreds, and the shreds come in forward error
correction sets. The tracker collects the shreds of every set. Some data shred of a set
is marked as its last, and from its index the tracker knows how many data shreds to
expect; when it has that many, it hands the set on and forgets it. A set that stays
incomplete for too long is dropped.

Parsing a shred is left to another package and is a parameter. Shred indices and
counts are 32-bit and wrap around.
-/

set_option autoImplicit false

namespace SenderAnalysis.ShredStream

/-- A packet as it was received. -/
structure RawShredPacket where
  bytes : List UInt8
  receivedAt : Instant
deriving DecidableEq, Repr

inductive ShredType where
  | data
  | code
deriving DecidableEq, Repr

/-- A shred, as far as the tracker and the deshredder read it. -/
structure Shred where
  slot : Nat
  fecSetIndex : UInt32
  index : UInt32
  shredType : ShredType
  lastInSlot : Bool
  dataComplete : Bool
  payload : List UInt8
deriving DecidableEq, Repr

/-- What identifies a FEC set: the slot and the index of its first shred. -/
abbrev FecSetKey := Nat × UInt32

/-- The set a shred belongs to. -/
def Shred.key (shred : Shred) : FecSetKey := (shred.slot, shred.fecSetIndex)

/-- The shred is marked as the last data shred of its set. -/
def Shred.isTerminator (shred : Shred) : Bool := shred.lastInSlot || shred.dataComplete

/-- A set with enough data shreds to be put together. -/
structure FecSetReady where
  slot : Nat
  fecSetIndex : UInt32
  firstShredAt : Instant
  completedAt : Instant
  dataShreds : List Shred
  codingShreds : List Shred
deriving DecidableEq, Repr

def FecSetReady.key (ready : FecSetReady) : FecSetKey := (ready.slot, ready.fecSetIndex)

/-- What is kept of an incomplete set. -/
structure FecSetState where
  firstShredAt : Option Instant := none
  data : HashTable UInt32 Shred := .empty
  coding : HashTable UInt32 Shred := .empty
  expectedDataCount : Option UInt32 := none

namespace FecSetState

/-- Note a shred of the set. -/
def note (state : FecSetState) (receivedAt : Instant) (shred : Shred) : FecSetState :=
  let stamped := { state with firstShredAt := some (state.firstShredAt.getD receivedAt) }
  match shred.shredType with
  | .data =>
      { stamped with
        expectedDataCount :=
          if shred.isTerminator then some (shred.index - shred.fecSetIndex + 1)
          else stamped.expectedDataCount
        data := stamped.data.insert shred.index shred }
  | .code => { stamped with coding := stamped.coding.insert shred.index shred }

/-- There are as many data shreds as expected. -/
def dataComplete (state : FecSetState) : Bool :=
  (state.expectedDataCount.map fun count =>
    decide (UInt32.ofNat state.data.size ≥ count)).getD false

/-- A set that was stamped, handed on. -/
def ready (state : FecSetState) (stamped : state.firstShredAt.isSome) (key : FecSetKey)
    (completedAt : Instant) : FecSetReady where
  slot := key.1
  fecSetIndex := key.2
  firstShredAt := state.firstShredAt.get stamped
  completedAt := completedAt
  dataShreds := (state.data.entries.map fun entry => entry.2).mergeSort
    fun first second => first.index ≤ second.index
  codingShreds := state.coding.entries.map fun entry => entry.2

/-- A set is stamped with its first shred. -/
theorem isSome_note (state : FecSetState) (receivedAt : Instant) (shred : Shred) :
    (state.note receivedAt shred).firstShredAt.isSome := by
  rw [note]
  split <;> rfl

/-- A set is young enough to be kept. -/
def alive (now : Instant) (maxAge : Duration) (state : FecSetState) : Bool :=
  (state.firstShredAt.map fun stamp =>
    decide (saturatingDurationSince now stamp < maxAge)).getD true

end FecSetState

structure FecTracker where
  sets : HashTable FecSetKey FecSetState := .empty

namespace FecTracker

/-- The state of a set that a shred is noted in. -/
def entry (tracker : FecTracker) (key : FecSetKey) : FecSetState :=
  (tracker.sets.get key).getD {}

/-- Take in a shred. The answer is the set that it completed, if it did. -/
def accept (tracker : FecTracker) (receivedAt completedAt : Instant) (shred : Shred) :
    FecTracker × Option FecSetReady :=
  let state := (tracker.entry shred.key).note receivedAt shred
  if state.dataComplete then
    (⟨tracker.sets.remove shred.key⟩,
      some (state.ready (FecSetState.isSome_note _ _ _) shred.key completedAt))
  else (⟨tracker.sets.insert shred.key state⟩, none)

/-- Take in a packet. A packet that is no shred is counted and dropped. -/
def ingest (parse : List UInt8 → Option Shred) (tracker : FecTracker) (packet : RawShredPacket)
    (completedAt : Instant) :
    FecTracker × Option FecSetReady × List (Effect DropCounter EntryObservation) :=
  match parse packet.bytes with
  | none => (tracker, none, [.fetchAdd .shredParseError 1])
  | some shred =>
      let accepted := tracker.accept packet.receivedAt completedAt shred
      (accepted.1, accepted.2, [])

/-- Drop the sets that are too old. The answer is how many were dropped. -/
def evictOlderThan (tracker : FecTracker) (now : Instant) (maxAge : Duration) :
    FecTracker × Nat × List (Effect DropCounter EntryObservation) :=
  let kept := tracker.sets.retain fun _ state => state.alive now maxAge
  (⟨kept⟩, tracker.sets.size - kept.size,
    (tracker.sets.entries.filter fun entry => !entry.2.alive now maxAge).map
      fun _ => .fetchAdd .fecSetTimeout 1)

/-- Every set that is dropped is counted. -/
theorem counted_evictOlderThan (tracker : FecTracker) (now : Instant) (maxAge : Duration) :
    counted .fecSetTimeout (tracker.evictOlderThan now maxAge).2.2 =
      (tracker.evictOlderThan now maxAge).2.1 := by
  have split := @List.length_eq_length_filter_add _ tracker.sets.entries
    fun entry => entry.2.alive now maxAge
  simp only [evictOlderThan, HashTable.size, HashTable.retain, counted, List.map_map]
  rw [split]
  simp [Function.comp_def, Effect.addedTo]

/-- Only the set of the shred changes. -/
theorem get_accept (tracker : FecTracker) (receivedAt completedAt : Instant) (shred : Shred)
    (key : FecSetKey) :
    (tracker.accept receivedAt completedAt shred).1.sets.get key =
      if key = shred.key then
        if ((tracker.entry key).note receivedAt shred).dataComplete then none
        else some ((tracker.entry key).note receivedAt shred)
      else tracker.sets.get key := by
  by_cases own : key = shred.key
  · subst own
    rw [accept]
    split <;> simp [*]
  · rw [accept]
    split <;> simp [HashTable.get_remove, HashTable.get_insert, own]

theorem get_evictOlderThan (tracker : FecTracker) (now : Instant) (maxAge : Duration)
    (key : FecSetKey) :
    (tracker.evictOlderThan now maxAge).1.sets.get key =
      (tracker.sets.get key).filter (FecSetState.alive now maxAge) :=
  HashTable.get_retain _ _ _

end FecTracker

end SenderAnalysis.ShredStream

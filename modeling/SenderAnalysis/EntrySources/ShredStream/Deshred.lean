import SenderAnalysis.EntrySources.ShredStream.FecTracker

/-!
# The deshredder

The deshredder takes in packets one after the other. When a packet completes a FEC
set, the set is put together and its entries are read and emitted, numbered by the
running offset of their slot. A set that cannot be put together or read is counted and
skipped. Every half second the sets that stayed incomplete are dropped, and with them
the offsets of slots far behind, if there are too many.

Putting a set together and reading its entries is left to other packages, as parsing
a shred is.
-/

set_option autoImplicit false

namespace SenderAnalysis.ShredStream

/-- What the deshredder uses of other packages. -/
structure ShredCodecs where
  newFromSerializedShred : List UInt8 → Option Shred
  deshred : List (List UInt8) → Option (List UInt8)
  wincode : List UInt8 → Option (List SolanaEntry)

/-- The entries of a set. -/
def readEntries (codecs : ShredCodecs) (ready : FecSetReady) : Option (List SolanaEntry) :=
  (codecs.deshred (ready.dataShreds.map Shred.payload)).bind codecs.wincode

/-- Emit the entries of a set and move the offset of its slot past them. -/
def emitEntries (codecs : ShredCodecs) (ready : FecSetReady) (slotOffset : SlotOffsets) :
    SlotOffsets × List (Effect DropCounter EntryObservation) :=
  match codecs.deshred (ready.dataShreds.map Shred.payload) with
  | none => (slotOffset, [.fetchAdd .deshredError 1])
  | some bytes =>
      match codecs.wincode bytes with
      | none => (slotOffset, [.fetchAdd .entryDecodeError 1])
      | some entries =>
          (advanceOffset slotOffset ready.slot entries.length,
            emitBatch (some ready.firstShredAt) ready.completedAt ready.slot
              (baseIndex slotOffset ready.slot) entries)

/-- A set is emitted with its entries, or, when they cannot be read, neither an entry is
emitted nor an offset moved. -/
theorem emitEntries_eq (codecs : ShredCodecs) (ready : FecSetReady) (slotOffset : SlotOffsets) :
    (∃ entries, readEntries codecs ready = some entries ∧
      emitEntries codecs ready slotOffset =
        (advanceOffset slotOffset ready.slot entries.length,
          emitBatch (some ready.firstShredAt) ready.completedAt ready.slot
            (baseIndex slotOffset ready.slot) entries)) ∨
    (readEntries codecs ready = none ∧ (emitEntries codecs ready slotOffset).1 = slotOffset ∧
      sent (emitEntries codecs ready slotOffset).2 = []) := by
  rw [readEntries, emitEntries]
  cases codecs.deshred (ready.dataShreds.map Shred.payload) with
  | none => exact .inr ⟨rfl, rfl, rfl⟩
  | some bytes =>
    cases read : codecs.wincode bytes with
    | none => exact .inr ⟨by simpa using read, by simp [read], by simp [read]⟩
    | some entries => exact .inl ⟨entries, by simpa using read, by simp [read]⟩

/-- One turn of the loop: a packet, and the clock when a set is found complete and at
the end of the turn. -/
structure DeshredInput where
  packet : RawShredPacket
  completedAt : Instant
  now : Instant
deriving DecidableEq, Repr

/-- What the loop keeps. -/
structure DeshredLoop where
  tracker : FecTracker := {}
  slotEntryOffset : SlotOffsets := .empty
  highestSlot : Nat := 0
  lastEvict : Instant

namespace DeshredLoop

/-- Old sets are dropped when more than this time has passed: 500 ms. -/
def evictInterval : Duration := 500000000

/-- The age at which an incomplete set is dropped: 2 s. -/
def maxAge : Duration := 2000000000

/-- More offsets than these are not kept. -/
def offsetLimit : Nat := 2048

variable (codecs : ShredCodecs)

/-- The set that the packet of a turn completes. -/
def released (loop : DeshredLoop) (input : DeshredInput) : Option FecSetReady :=
  (loop.tracker.ingest codecs.newFromSerializedShred input.packet input.completedAt).2.1

/-- Take in a packet and emit the set it completes. -/
def receive (loop : DeshredLoop) (input : DeshredInput) :
    DeshredLoop × List (Effect DropCounter EntryObservation) :=
  let ingested := loop.tracker.ingest codecs.newFromSerializedShred input.packet
    input.completedAt
  match ingested.2.1 with
  | some ready =>
      let emitted := emitEntries codecs ready loop.slotEntryOffset
      ({ loop with
          tracker := ingested.1
          slotEntryOffset := emitted.1
          highestSlot := if ready.slot > loop.highestSlot then ready.slot else loop.highestSlot },
        ingested.2.2 ++ emitted.2)
  | none => ({ loop with tracker := ingested.1 }, ingested.2.2)

/-- It is time to drop old sets. -/
def EvictionDue (lastEvict now : Instant) : Prop :=
  saturatingDurationSince now lastEvict > evictInterval

instance (lastEvict now : Instant) : Decidable (EvictionDue lastEvict now) :=
  inferInstanceAs (Decidable (_ > _))

/-- Drop old sets and the offsets of slots far behind, when it is time. -/
def maintain (loop : DeshredLoop) (now : Instant) :
    DeshredLoop × List (Effect DropCounter EntryObservation) :=
  if EvictionDue loop.lastEvict now then
    let evicted := loop.tracker.evictOlderThan now maxAge
    ({ loop with
        tracker := evicted.1
        slotEntryOffset := pruneOffsets offsetLimit loop.highestSlot loop.slotEntryOffset
        lastEvict := now },
      evicted.2.2)
  else (loop, [])

/-- One turn of the loop. -/
def step (loop : DeshredLoop) (input : DeshredInput) :
    DeshredLoop × List (Effect DropCounter EntryObservation) :=
  let received := loop.receive codecs input
  let maintained := received.1.maintain input.now
  (maintained.1, received.2 ++ maintained.2)

/-- The loop before its first turn. -/
def start (startedAt : Instant) : DeshredLoop where
  lastEvict := startedAt

/-- The loop after a list of turns. -/
def after (startedAt : Instant) (inputs : List DeshredInput) : DeshredLoop :=
  (runAll (step codecs) (start startedAt) inputs).1

/-! ## What a turn does -/

theorem after_concat (startedAt : Instant) (past : List DeshredInput) (input : DeshredInput) :
    after codecs startedAt (past ++ [input]) =
      (step codecs (after codecs startedAt past) input).1 := by
  rw [after, runAll_concat]
  rfl

theorem receive_tracker (loop : DeshredLoop) (input : DeshredInput) :
    (loop.receive codecs input).1.tracker =
      (loop.tracker.ingest codecs.newFromSerializedShred input.packet input.completedAt).1 := by
  rw [receive]
  split <;> rfl

theorem receive_lastEvict (loop : DeshredLoop) (input : DeshredInput) :
    (loop.receive codecs input).1.lastEvict = loop.lastEvict := by
  rw [receive]
  split <;> rfl

theorem sent_ingest (tracker : FecTracker) (packet : RawShredPacket) (completedAt : Instant) :
    sent (tracker.ingest codecs.newFromSerializedShred packet completedAt).2.2 = [] := by
  rw [FecTracker.ingest]
  split <;> rfl

theorem sent_maintain (loop : DeshredLoop) (now : Instant) : sent (loop.maintain now).2 = [] := by
  rw [maintain]
  split
  · refine List.filterMap_eq_nil_iff.mpr fun effect member => ?_
    obtain ⟨_, _, rfl⟩ := List.mem_map.mp member
    rfl
  · rfl

/-- A turn that completes no set, or one that cannot be read, emits nothing. -/
theorem step_silent {loop : DeshredLoop} {input : DeshredInput}
    (unread : (loop.released codecs input).bind (readEntries codecs) = none) :
    sent (loop.step codecs input).2 = [] ∧
      (loop.receive codecs input).1.slotEntryOffset = loop.slotEntryOffset := by
  rw [step, sent_append, sent_maintain, receive]
  rw [released] at unread
  cases completed : (loop.tracker.ingest codecs.newFromSerializedShred input.packet
      input.completedAt).2.1 with
  | none => simp [sent_ingest]
  | some ready =>
    rw [completed, Option.bind_some] at unread
    rcases emitEntries_eq codecs ready loop.slotEntryOffset with ⟨_, read, _⟩ | ⟨_, kept, silent⟩
    · rw [read] at unread
      cases unread
    · simp [sent_ingest, kept, silent]

/-- **A turn that completes a set emits its entries once and moves the offset of its slot
past them.** -/
theorem step_emits {loop : DeshredLoop} {input : DeshredInput} {ready : FecSetReady}
    {entries : List SolanaEntry} (completed : loop.released codecs input = some ready)
    (read : readEntries codecs ready = some entries) :
    sent (loop.step codecs input).2 =
      sent (emitBatch (some ready.firstShredAt) ready.completedAt ready.slot
        (baseIndex loop.slotEntryOffset ready.slot) entries) ∧
    (loop.receive codecs input).1.slotEntryOffset =
      advanceOffset loop.slotEntryOffset ready.slot entries.length := by
  rw [step, sent_append, sent_maintain, receive]
  rw [released] at completed
  rcases emitEntries_eq codecs ready loop.slotEntryOffset with ⟨own, same, emitted⟩ | ⟨none, _, _⟩
  · obtain rfl := Option.some.inj (read.symm.trans same)
    simp [completed, sent_ingest, emitted]
  · rw [read] at none
    cases none

end DeshredLoop

end SenderAnalysis.ShredStream

import SenderAnalysis.EntrySources.ShredStream.Entries

/-!
# The proxy's entry stream

The proxy reassembles the entries itself and streams them in messages, each with one
batch of one slot. The receiver decodes a message, numbers its entries by the running
offset of the slot and moves the offset on. A message that cannot be decoded is
counted and skipped. When the stream ends or fails, the receiver subscribes again and
starts with no offsets; the codec that was found to work is remembered for the whole
process.

The two deserializers come from other packages and are parameters.
-/

set_option autoImplicit false

namespace SenderAnalysis.ShredStream

/-- The deserializers of a batch of entries. -/
structure EntryCodecs where
  bincode : List UInt8 → Option (List SolanaEntry)
  wincode : List UInt8 → Option (List SolanaEntry)

/-- Which deserializer the stream's batches are read with. -/
inductive EntryCodec where
  | bincode
  | wincode
deriving DecidableEq, Repr

/-- A message of the stream. -/
structure EntryMessage where
  slot : Nat
  entries : List UInt8
deriving DecidableEq, Repr

/-- Read a batch. The first codec that works is remembered. -/
def decodeEntries (codecs : EntryCodecs) (codec : Option EntryCodec) (bytes : List UInt8) :
    Option (List SolanaEntry) × Option EntryCodec :=
  match codec with
  | some .bincode => (codecs.bincode bytes, codec)
  | some .wincode => (codecs.wincode bytes, codec)
  | none =>
      match codecs.bincode bytes with
      | some entries => (some entries, some .bincode)
      | none =>
          match codecs.wincode bytes with
          | some entries => (some entries, some .wincode)
          | none => (none, none)

/-- The state of the receiver: the codec of the process, and what one subscription
keeps. -/
structure GrpcSource where
  codec : Option EntryCodec := none
  slotOffset : SlotOffsets := .empty
  highestSlot : Nat := 0

/-- What happens to the receiver. -/
inductive GrpcInput where
  | message (observedAt : Instant) (msg : EntryMessage)
  | reconnect
deriving DecidableEq, Repr

namespace GrpcSource

/-- More offsets than these are not kept. -/
def offsetLimit : Nat := 1024

/-- Handle a batch that was read. -/
def handleBatch (source : GrpcSource) (observedAt : Instant) (slot : Nat)
    (entries : List SolanaEntry) : GrpcSource × List (Effect DropCounter EntryObservation) :=
  let base := baseIndex source.slotOffset slot
  let highestSlot := if slot > source.highestSlot then slot else source.highestSlot
  ({ source with
      slotOffset := pruneOffsets offsetLimit highestSlot
        (advanceOffset source.slotOffset slot entries.length)
      highestSlot := highestSlot },
    emitBatch none observedAt slot base entries)

/-- One message or one new subscription. -/
def step (codecs : EntryCodecs) (source : GrpcSource) :
    GrpcInput → GrpcSource × List (Effect DropCounter EntryObservation)
  | .message observedAt msg =>
      match decodeEntries codecs source.codec msg.entries with
      | (some entries, codec) =>
          handleBatch { source with codec := codec } observedAt msg.slot entries
      | (none, codec) => ({ source with codec := codec }, [.fetchAdd .entryDecodeError 1])
  | .reconnect => ({ codec := source.codec }, [])

/-! ## What a message means for the offset of a slot -/

/-- The number of entries of a message: of those it is read as, or, when it cannot be
read, of those hidden in it. -/
def batchLength (hidden : EntryMessage → Nat) (msg : EntryMessage)
    (decoded : Option (List SolanaEntry)) : Nat :=
  (decoded.map List.length).getD (hidden msg)

/-- The offset of a slot is dropped after a batch was handled. -/
def Forgets (source : GrpcSource) (batchSlot count slot : Nat) : Prop :=
  Pruned offsetLimit (if batchSlot > source.highestSlot then batchSlot else source.highestSlot)
    (advanceOffset source.slotOffset batchSlot count) slot

instance (source : GrpcSource) (batchSlot count slot : Nat) :
    Decidable (source.Forgets batchSlot count slot) :=
  inferInstanceAs (Decidable (Pruned ..))

/-- What one message or one new subscription means for the offset of a slot. -/
def delivery (codecs : EntryCodecs) (hidden : EntryMessage → Nat) (source : GrpcSource) :
    GrpcInput → Nat → Delivery
  | .message _ msg, slot =>
      let decoded := (decodeEntries codecs source.codec msg.entries).1
      let count := batchLength hidden msg decoded
      { length := if msg.slot = slot then count else 0
        counted := decoded.isSome
        forgotten := decoded.isSome && decide (source.Forgets msg.slot count slot) }
  | .reconnect, _ => ⟨0, false, true⟩

/-- The receiver as a component that numbers the entries of every slot. -/
def numbering (codecs : EntryCodecs) (hidden : EntryMessage → Nat) :
    Numbering GrpcSource GrpcInput (Effect DropCounter EntryObservation) Nat where
  start := {}
  step := step codecs
  base source slot := baseIndex source.slotOffset slot
  delivery := delivery codecs hidden
  base_start slot := baseIndex_empty slot
  base_step source input slot := by
    cases input with
    | reconnect => exact baseIndex_empty slot
    | message observedAt msg =>
      cases decoded : decodeEntries codecs source.codec msg.entries with
      | mk entries codec =>
        cases entries with
        | none => simp [step, delivery, decoded, Delivery.advance]
        | some entries =>
          simp only [step, decoded, handleBatch, baseIndex_pruneOffsets, delivery, batchLength,
            Delivery.advance, baseIndex_advanceOffset, Option.isSome_some, Bool.true_and,
            if_true, Option.map_some, Option.getD_some, decide_eq_true_eq]
          rfl

end GrpcSource

end SenderAnalysis.ShredStream

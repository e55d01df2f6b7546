import SenderAnalysis.EntrySources.ShredStream.Deshred
import SenderAnalysis.EntrySources.ShredStream.Grpc
import SenderAnalysis.Foundations.Traces

/-!
# The index of an entry

Both receivers of ShredStream number the entries of a slot by a running offset. The
batches of a slot are taken to arrive in the order of the ledger, so the position of an
entry is the number of entries in the batches before it and in front of it. A batch
that cannot be read has entries too, but the receiver does not know how many; here a
parameter says so. The offset of the receiver then falls behind the position, and it
does so again when the stream is subscribed to anew or the offset is dropped.

The offset is there so that the order of the entries can be reconstructed from their
indices. The indices are the positions exactly as long as nothing of the slot was lost.
-/

set_option autoImplicit false

namespace SenderAnalysis.ShredStream

/-! ## The deshredder as a component that numbers entries -/

namespace DeshredLoop

variable (codecs : ShredCodecs) (hidden : FecSetReady → Nat)

/-- The number of entries of a set: of those that are read, or, when it cannot be read,
of those hidden in it. -/
def batchLength (ready : FecSetReady) : Nat :=
  ((readEntries codecs ready).map List.length).getD (hidden ready)

/-- The offset of a slot is dropped at the end of a turn. -/
def Forgets (loop : DeshredLoop) (input : DeshredInput) (slot : Nat) : Prop :=
  EvictionDue loop.lastEvict input.now ∧
    Pruned offsetLimit (loop.receive codecs input).1.highestSlot
      (loop.receive codecs input).1.slotEntryOffset slot

instance (loop : DeshredLoop) (input : DeshredInput) (slot : Nat) :
    Decidable (loop.Forgets codecs input slot) :=
  inferInstanceAs (Decidable (_ ∧ _))

/-- What a turn means for the offset of a slot. -/
def delivery (loop : DeshredLoop) (input : DeshredInput) (slot : Nat) : Delivery where
  length :=
    match loop.released codecs input with
    | some ready => if ready.slot = slot then batchLength codecs hidden ready else 0
    | none => 0
  counted := ((loop.released codecs input).bind (readEntries codecs)).isSome
  forgotten := loop.Forgets codecs input slot

variable {codecs}

/-- A packet moves the offset of a slot by what its batch counts. -/
theorem baseIndex_receive (loop : DeshredLoop) (input : DeshredInput) (slot : Nat) :
    baseIndex (loop.receive codecs input).1.slotEntryOffset slot =
      baseIndex loop.slotEntryOffset slot +
        UInt32.ofNat (loop.delivery codecs hidden input slot).advance := by
  rw [Delivery.advance, delivery]
  cases read : (loop.released codecs input).bind (readEntries codecs) with
  | none => simp [(step_silent codecs read).2]
  | some entries =>
    obtain ⟨ready, completed, own⟩ := Option.bind_eq_some_iff.mp read
    simp [(step_emits codecs completed own).2, baseIndex_advanceOffset, completed, batchLength, own]

theorem baseIndex_step (loop : DeshredLoop) (input : DeshredInput) (slot : Nat) :
    baseIndex (loop.step codecs input).1.slotEntryOffset slot =
      if (loop.delivery codecs hidden input slot).forgotten then 0
      else baseIndex loop.slotEntryOffset slot +
        UInt32.ofNat (loop.delivery codecs hidden input slot).advance := by
  rw [← baseIndex_receive]
  have forgets : (loop.delivery codecs hidden input slot).forgotten = true ↔
      loop.Forgets codecs input slot := decide_eq_true_iff
  rw [if_congr forgets rfl rfl, step, maintain, receive_lastEvict]
  by_cases due : EvictionDue loop.lastEvict input.now
  · rw [if_pos due]
    dsimp only
    rw [baseIndex_pruneOffsets]
    exact if_congr ⟨fun pruned => ⟨due, pruned⟩, And.right⟩ rfl rfl
  · rw [if_neg due, if_neg fun both => due both.1]

/-- The deshredder as a component that numbers the entries of every slot. -/
def numbering (codecs : ShredCodecs) (hidden : FecSetReady → Nat) (startedAt : Instant) :
    Numbering DeshredLoop DeshredInput (Effect DropCounter EntryObservation) Nat where
  start := start startedAt
  step := step codecs
  base loop slot := baseIndex loop.slotEntryOffset slot
  delivery := delivery codecs hidden
  base_start := baseIndex_empty
  base_step := baseIndex_step hidden

theorem emitsBatch_step (codecs : ShredCodecs) (hidden : FecSetReady → Nat) (startedAt : Instant)
    (loop : DeshredLoop) (input : DeshredInput) :
    EmitsBatch ((numbering codecs hidden startedAt).base loop)
      (fun slot => ((numbering codecs hidden startedAt).delivery loop input slot).advance)
      ((numbering codecs hidden startedAt).step loop input).2 := by
  cases read : (loop.released codecs input).bind (readEntries codecs) with
  | none => exact .inl ⟨(step_silent codecs read).1,
      fun slot => by simp [numbering, delivery, Delivery.advance, read]⟩
  | some entries =>
    obtain ⟨ready, completed, own⟩ := Option.bind_eq_some_iff.mp read
    refine .inr ⟨_, _, ready.slot, entries, (step_emits codecs completed own).1, fun slot => ?_⟩
    simp [numbering, delivery, Delivery.advance, completed, batchLength, own]

end DeshredLoop

theorem GrpcSource.emitsBatch_step (codecs : EntryCodecs) (hidden : EntryMessage → Nat)
    (source : GrpcSource) (input : GrpcInput) :
    EmitsBatch ((numbering codecs hidden).base source)
      (fun slot => ((numbering codecs hidden).delivery source input slot).advance)
      ((numbering codecs hidden).step source input).2 := by
  cases input with
  | reconnect => exact .inl ⟨rfl, fun slot => rfl⟩
  | message observedAt msg =>
    cases decoded : decodeEntries codecs source.codec msg.entries with
    | mk entries codec =>
      cases entries with
      | none =>
        exact .inl ⟨by simp [numbering, step, decoded],
          fun slot => by simp [numbering, delivery, decoded, Delivery.advance]⟩
      | some entries =>
        refine .inr ⟨none, observedAt, msg.slot, entries, ?_, fun slot => ?_⟩
        · simp [numbering, step, decoded, handleBatch]
        · simp [numbering, delivery, decoded, batchLength, Delivery.advance]

/-! ## The indices of a run -/

/-- **The indices that the receivers of ShredStream emit are the positions of the entries
exactly when no batch with entries is emitted after a batch of its slot was not read, or
its offset was dropped.** -/
theorem indicesTrue_iff (codecs : EntryCodecs) (hidden : EntryMessage → Nat)
    (shredCodecs : ShredCodecs) (hiddenInSet : FecSetReady → Nat) (startedAt : Instant)
    (messages : List GrpcInput) (packets : List DeshredInput) :
    (IndicesTrue (GrpcSource.numbering codecs hidden) messages ↔
      EachAfter (GrpcSource.numbering codecs hidden).Aligned messages) ∧
    (IndicesTrue (DeshredLoop.numbering shredCodecs hiddenInSet startedAt) packets ↔
      EachAfter (DeshredLoop.numbering shredCodecs hiddenInSet startedAt).Aligned packets) :=
  ⟨indicesTrue_iff_of_emits (GrpcSource.emitsBatch_step codecs hidden) messages,
    indicesTrue_iff_of_emits (DeshredLoop.emitsBatch_step shredCodecs hiddenInSet startedAt)
      packets⟩

/-! ### Batches of one slot -/

/-- A codec that reads one tick from all bytes but the empty ones. -/
def sampleEntryCodecs : EntryCodecs where
  bincode bytes := if bytes = [] then none else some [⟨64, Hash.default, []⟩]
  wincode _ := none

def unreadable : GrpcInput := .message 0 ⟨100, []⟩

def readable : GrpcInput := .message 0 ⟨100, [1]⟩

/-- After a batch of one entry that cannot be read, or that was received before the stream
was subscribed to anew, the second entry of the slot is emitted with index 0. -/
theorem secondEntry_index_zero :
    ¬ IndicesTrue (GrpcSource.numbering sampleEntryCodecs fun _ => 1) [unreadable, readable] ∧
    ¬ IndicesTrue (GrpcSource.numbering sampleEntryCodecs fun _ => 1)
      [readable, .reconnect, readable] := by
  constructor
  · intro indices
    have here := indices [unreadable] readable [] rfl 0
      (observation none 0 100 0 ⟨64, Hash.default, []⟩) (by decide +kernel)
    exact absurd here (by decide +kernel)
  · intro indices
    have here := indices [readable, .reconnect] readable [] rfl 0
      (observation none 0 100 0 ⟨64, Hash.default, []⟩) (by decide +kernel)
    exact absurd here (by decide +kernel)

end SenderAnalysis.ShredStream

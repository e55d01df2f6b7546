import SenderAnalysis.EntrySources.Observation
import SenderAnalysis.Foundations.Effects
import SenderAnalysis.Foundations.HashTables
import SenderAnalysis.Foundations.RunningOffsets

/-!
# Entries from ShredStream

ShredStream delivers the entries of a slot in batches without saying where in the
slot a batch begins. Both receivers, the one that reassembles shreds and the one that
asks a proxy, keep a running offset for every slot and number the entries with it.
The offsets of slots far behind the highest slot are dropped when too many are kept.

What is common to the receivers stands here: the observation made of an entry, the
table of offsets, and what a batch and the dropping of offsets do to it.
-/

set_option autoImplicit false

namespace SenderAnalysis.ShredStream

/-- The counters that the receivers of ShredStream update themselves. -/
inductive DropCounter where
  | shredParseError
  | deshredError
  | entryDecodeError
  | fecSetTimeout
deriving DecidableEq, Repr

/-- A ledger entry. Of a transaction only the signatures are read. -/
structure SolanaEntry where
  numHashes : Nat
  hash : Hash
  transactions : List (List Signature)
deriving DecidableEq, Repr

/-- The observation made of an entry. The first signature of a transaction is the
canonical one. -/
def observation (firstShredAt : Option Instant) (observedAt : Instant) (slot : Nat)
    (entryIndex : UInt32) (entry : SolanaEntry) : EntryObservation where
  source := .shredStream
  observedAt := observedAt
  slot := slot
  entryIndex := entryIndex
  numHashes := entry.numHashes
  entryHash := entry.hash
  txCount := UInt32.ofNat entry.transactions.length
  signatures := entry.transactions.filterMap List.head?
  firstShredAt := firstShredAt
  leader := none

/-- Offer the entries of a batch, numbered from a base on. -/
def emitBatch (firstShredAt : Option Instant) (observedAt : Instant) (slot : Nat) (base : UInt32)
    (entries : List SolanaEntry) : List (Effect DropCounter EntryObservation) :=
  entries.zipIdx.map fun numbered =>
    .trySend (observation firstShredAt observedAt slot (base + UInt32.ofNat numbered.2) numbered.1)

@[simp] theorem observation_slot (firstShredAt : Option Instant) (observedAt : Instant)
    (slot : Nat) (idx : UInt32) (entry : SolanaEntry) :
    (observation firstShredAt observedAt slot idx entry).slot = slot := rfl

@[simp] theorem observation_entryIndex (firstShredAt : Option Instant) (observedAt : Instant)
    (slot : Nat) (idx : UInt32) (entry : SolanaEntry) :
    (observation firstShredAt observedAt slot idx entry).entryIndex = idx := rfl

theorem sent_emitBatch (firstShredAt : Option Instant) (observedAt : Instant) (slot : Nat)
    (base : UInt32) (entries : List SolanaEntry) :
    sent (emitBatch firstShredAt observedAt slot base entries) =
      entries.zipIdx.map fun numbered =>
        observation firstShredAt observedAt slot (base + UInt32.ofNat numbered.2) numbered.1 := by
  rw [sent, emitBatch, List.filterMap_map, List.filterMap_eq_map_iff_forall_eq_some.mpr]
  exact fun _ _ => rfl

/-! ## The offsets of the slots -/

/-- The number of entries emitted so far for every slot. -/
abbrev SlotOffsets := HashTable Nat UInt32

/-- The number that the next entry of a slot gets. -/
def baseIndex (offsets : SlotOffsets) (slot : Nat) : UInt32 := (offsets.get slot).getD 0

/-- Move the offset of a slot past a batch. -/
def advanceOffset (offsets : SlotOffsets) (slot count : Nat) : SlotOffsets :=
  offsets.insert slot (baseIndex offsets slot + UInt32.ofNat count)

/-- The offset of the slot is dropped when more than `limit` offsets are kept. -/
def Pruned (limit highestSlot : Nat) (offsets : SlotOffsets) (slot : Nat) : Prop :=
  limit < offsets.size ∧ slot < highestSlot - 512

instance (limit highestSlot : Nat) (offsets : SlotOffsets) (slot : Nat) :
    Decidable (Pruned limit highestSlot offsets slot) :=
  inferInstanceAs (Decidable (_ ∧ _))

/-- Drop the offsets of slots far behind the highest slot when more than `limit` are
kept. -/
def pruneOffsets (limit highestSlot : Nat) (offsets : SlotOffsets) : SlotOffsets :=
  if offsets.size > limit then
    let cutoff := highestSlot - 512
    offsets.retain fun slot _ => slot ≥ cutoff
  else offsets

@[simp] theorem baseIndex_empty (slot : Nat) : baseIndex .empty slot = 0 := by
  simp [baseIndex]

theorem baseIndex_advanceOffset (offsets : SlotOffsets) (slot count other : Nat) :
    baseIndex (advanceOffset offsets slot count) other =
      baseIndex offsets other + UInt32.ofNat (if slot = other then count else 0) := by
  by_cases same : slot = other
  · subst same
    simp [baseIndex, advanceOffset]
  · simp [baseIndex, advanceOffset, HashTable.get_insert, Ne.symm same, same]

theorem baseIndex_pruneOffsets (limit highestSlot : Nat) (offsets : SlotOffsets) (slot : Nat) :
    baseIndex (pruneOffsets limit highestSlot offsets) slot =
      if Pruned limit highestSlot offsets slot then 0 else baseIndex offsets slot := by
  by_cases pruned : Pruned limit highestSlot offsets slot
  · have dropped : (pruneOffsets limit highestSlot offsets).get slot = none := by
      rw [pruneOffsets, if_pos pruned.1, HashTable.get_retain]
      cases offsets.get slot with
      | none => rfl
      | some count =>
        have behind := Nat.not_le.mpr pruned.2
        rw [Option.filter_some, if_neg fun kept => behind (of_decide_eq_true kept)]
    rw [if_pos pruned, baseIndex, dropped, Option.getD_none]
  · have kept : (pruneOffsets limit highestSlot offsets).get slot = offsets.get slot := by
      rw [pruneOffsets]
      split
      · next full =>
        have near : highestSlot - 512 ≤ slot := Nat.le_of_not_lt fun behind =>
          pruned ⟨full, behind⟩
        rw [HashTable.get_retain]
        cases offsets.get slot with
        | none => rfl
        | some count => simp [Option.filter, near]
      · rfl
    rw [if_neg pruned, baseIndex, kept, ← baseIndex]

/-! ## The indices of a step -/

/-- Every observation that a step offers bears the number of entries that precede it in
its slot, where `due` is how many precede the first. -/
def PositionsTrue (due : Nat → Nat) (effects : List (Effect DropCounter EntryObservation)) :
    Prop :=
  ∀ (idx : Nat) (obs : EntryObservation), (sent effects)[idx]? = some obs →
    obs.entryIndex.toNat = due obs.slot + idx

theorem positionsTrue_emitBatch {due : Nat → Nat} (firstShredAt : Option Instant)
    (observedAt : Instant) (slot : Nat) (base : UInt32) (entries : List SolanaEntry) :
    PositionsTrue due (emitBatch firstShredAt observedAt slot base entries) ↔
      ∀ idx < entries.length, (base + UInt32.ofNat idx).toNat = due slot + idx := by
  rw [PositionsTrue, sent_emitBatch]
  constructor
  · intro numbered idx inside
    refine numbered idx (observation firstShredAt observedAt slot (base + UInt32.ofNat idx)
      entries[idx]) ?_
    simp [inside]
  · intro numbered idx obs found
    rw [List.getElem?_map, Option.map_eq_some_iff] at found
    obtain ⟨⟨entry, place⟩, found, rfl⟩ := found
    rw [List.getElem?_zipIdx, Option.map_eq_some_iff] at found
    obtain ⟨_, found, same⟩ := found
    obtain ⟨rfl, rfl⟩ := Prod.mk.inj same
    obtain ⟨inside, _⟩ := List.getElem?_eq_some_iff.mp found
    simpa using numbered idx inside

/-- What a step offers is one batch at most, numbered from the offset of its slot on, and
no offset but that of this slot moves. -/
def EmitsBatch (base : Nat → UInt32) (advance : Nat → Nat)
    (effects : List (Effect DropCounter EntryObservation)) : Prop :=
  (sent effects = [] ∧ ∀ slot, advance slot = 0) ∨
    ∃ firstShredAt observedAt slot entries,
      sent effects = sent (emitBatch firstShredAt observedAt slot (base slot) entries) ∧
        ∀ other, advance other = if slot = other then entries.length else 0

theorem EmitsBatch.positionsTrue_iff {base : Nat → UInt32} {advance due : Nat → Nat}
    {effects : List (Effect DropCounter EntryObservation)}
    (emits : EmitsBatch base advance effects) :
    PositionsTrue due effects ↔
      ∀ slot, ∀ idx < advance slot, (base slot + UInt32.ofNat idx).toNat = due slot + idx := by
  rcases emits with ⟨silent, still⟩ | ⟨firstShredAt, observedAt, slot, entries, same, moved⟩
  · rw [PositionsTrue, silent]
    simp [still]
  · have batch := @positionsTrue_emitBatch due firstShredAt observedAt slot (base slot) entries
    rw [PositionsTrue] at batch ⊢
    rw [same, batch]
    constructor
    · intro numbered other idx inside
      rw [moved] at inside
      split at inside
      · next own =>
        subst own
        exact numbered idx inside
      · omega
    · intro numbered idx inside
      exact numbered slot idx (by rwa [moved, if_pos rfl])

/-- Every observation of a run bears the position of its entry in its slot. -/
def IndicesTrue {σ ι : Type}
    (numbering : Numbering σ ι (Effect DropCounter EntryObservation) Nat) (inputs : List ι) :
    Prop :=
  EachAfter (fun past input =>
    PositionsTrue (fun slot => position (numbering.deliveries past slot))
      (numbering.step (numbering.after past) input).2) inputs

/-- Where a receiver emits batches from its offsets, the indices of a run are positions
exactly when no batch is emitted after entries of its slot were lost. -/
theorem indicesTrue_iff_of_emits {σ ι : Type}
    {numbering : Numbering σ ι (Effect DropCounter EntryObservation) Nat}
    (emits : ∀ state input, EmitsBatch (numbering.base state)
      (fun slot => (numbering.delivery state input slot).advance) (numbering.step state input).2)
    (inputs : List ι) :
    IndicesTrue numbering inputs ↔ EachAfter numbering.Aligned inputs :=
  eachAfter_congr fun past input =>
    (emits (numbering.after past) input).positionsTrue_iff.trans
      (numbering.aligned_iff past input).symm

end SenderAnalysis.ShredStream

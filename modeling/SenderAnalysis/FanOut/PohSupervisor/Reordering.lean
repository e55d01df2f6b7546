import SenderAnalysis.FanOut.PohSupervisor.TickCount

/-!
# Entries that arrive out of order are replayed in order

A slot is made of entries whose hash, number of hashes and number of transactions
belong to their index. `replay` says what a supervisor emits that gets these entries
in order: it needs no buffer. `PohSlot.core` is the part of a slot's state on which
the emitted events depend.

When every entry arrives, none twice, no gap times out, the buffer has room and no
slot is sealed early, the supervisor's own events are those of the replay, whatever
the order of the arrivals. The invariant (`Reordered`) says that the slot has emitted
a beginning of the replay and buffers the arrivals beyond it. Between two inputs
nothing is buffered at the cursor, so a slot whose entries have all arrived has
emitted them all.
-/

set_option autoImplicit false

namespace SenderAnalysis

/-- What belongs to an index of a slot, whoever reports it. -/
structure EntryContent where
  hash : Hash
  numHashes : Nat
  txCount : UInt32
deriving DecidableEq, Repr

/-- What an observation says about its index. -/
def EntryObservation.content (observation : EntryObservation) : EntryContent :=
  ⟨observation.entryHash, observation.numHashes, observation.txCount⟩

/-- The observation reports the entry of the slot that stands at its index. -/
def EntryObservation.Reports (block : Nat → List EntryContent) (observation : EntryObservation) :
    Prop :=
  (block observation.slot)[observation.entryIndex.toNat]? = some observation.content

/-- An event without what depends on the source and on waiting. -/
inductive Essence where
  | entry (index : UInt32) (hash : Hash) (tick cumulativeHashes : Nat) (tickUncertain : Bool)
  | missing (index : UInt32)
  | slotComplete (complete : OrderedSlotComplete)
  | slotIncomplete (incomplete : OrderedSlotIncomplete)
deriving DecidableEq, Repr

def OrderedEvent.essence : OrderedEvent → Essence
  | .entry e =>
      .entry e.entryIndex e.observation.entryHash e.tickIdxInSlot e.cumulativeHashesInSlot
        e.tickUncertain
  | .missing m => .missing m.entryIndex
  | .slotComplete c => .slotComplete c
  | .slotIncomplete i => .slotIncomplete i

namespace PohSupervisor

open Std (ExtTreeMap)
open OrderedMap

/-- The part of a slot's state that its events depend on. -/
structure Core where
  nextExpectedIdx : UInt32 := 0
  cumulativeHashes : Nat := 0
  tickIdx : Nat := 0
  lastEntryHash : Option Hash := none
  lastEntryIndex : UInt32 := 0
  hasMissing : Bool := false
  missingCount : Nat := 0
  totalEmitted : Nat := 0
deriving DecidableEq, Repr

def PohSlot.core (slot : PohSlot) : Core where
  nextExpectedIdx := slot.nextExpectedIdx
  cumulativeHashes := slot.cumulativeHashes
  tickIdx := slot.tickIdx
  lastEntryHash := slot.lastEntryHash
  lastEntryIndex := slot.lastEntryIndex
  hasMissing := slot.hasMissing
  missingCount := slot.missingCount
  totalEmitted := slot.totalEmitted

/-- The tick index after an entry with so many transactions. -/
def tickAfter (tickIdx : Nat) (txCount : UInt32) : Nat :=
  if txCount = 0 ∧ tickIdx < ticksPerSlot then saturatingAdd 8 tickIdx 1 else tickIdx

theorem countTick_eq (tickIdx : Nat) (observation : EntryObservation) :
    countTick tickIdx observation = tickAfter tickIdx observation.content.txCount := rfl

/-- Emit the entry at the cursor. -/
def Core.emit (core : Core) (content : EntryContent) : Core × List Essence :=
  let tick := tickAfter core.tickIdx content.txCount
  let hashes := saturatingAdd 64 core.cumulativeHashes content.numHashes
  ({ core with
      nextExpectedIdx := core.nextExpectedIdx + 1
      cumulativeHashes := hashes
      tickIdx := tick
      lastEntryHash := some content.hash
      lastEntryIndex := core.nextExpectedIdx
      totalEmitted := saturatingAdd 32 core.totalEmitted 1 },
    [.entry core.nextExpectedIdx content.hash tick hashes core.hasMissing])

/-- The entries of a slot, emitted in order. -/
def replay (contents : List EntryContent) : Core × List Essence := runAll Core.emit {} contents

/-- The slot's end after a replay. -/
def Core.terminal (slotKey : Nat) (core : Core) : Essence :=
  let lastHash := core.lastEntryHash.getD Hash.default
  if core.tickIdx ≥ ticksPerSlot then
    .slotComplete ⟨slotKey, core.totalEmitted, lastHash, core.tickIdx, core.missingCount⟩
  else
    .slotIncomplete ⟨slotKey, core.lastEntryIndex, lastHash, core.tickIdx, core.missingCount⟩

/-- The events of a slot whose entries come in order, and nothing for an empty slot. -/
def replayedEvents (slotKey : Nat) (contents : List EntryContent) : List Essence :=
  if contents = [] then []
  else (replay contents).2 ++ [(replay contents).1.terminal slotKey]

/-- The end of a slot is not an entry. -/
theorem terminal_ne_entry (slotKey : Nat) (core : Core) (index : UInt32) (hash : Hash)
    (tick hashes : Nat) (uncertain : Bool) :
    core.terminal slotKey ≠ .entry index hash tick hashes uncertain := by
  unfold Core.terminal
  split <;> simp

theorem terminalEvent_essence (slotKey : Nat) (slot : PohSlot) :
    (terminalEvent slotKey slot).essence = slot.core.terminal slotKey := by
  by_cases full : slot.tickIdx ≥ ticksPerSlot
  · have full' : slot.core.tickIdx ≥ ticksPerSlot := full
    simp only [terminalEvent, Core.terminal, if_pos full, if_pos full']
    rfl
  · have few : ¬ slot.core.tickIdx ≥ ticksPerSlot := full
    simp only [terminalEvent, Core.terminal, if_neg full, if_neg few]
    rfl

theorem replay_take_succ {contents : List EntryContent} {count : Nat} {content : EntryContent}
    (next : contents[count]? = some content) :
    replay (contents.take (count + 1)) =
      (((replay (contents.take count)).1.emit content).1,
        (replay (contents.take count)).2 ++ ((replay (contents.take count)).1.emit content).2) := by
  rw [List.take_add_one, next, Option.toList_some]
  exact runAll_concat _ _ _ _

/-- A replay has no gap, so no tick of it is uncertain. -/
theorem replay_certain (contents : List EntryContent) :
    (replay contents).1.hasMissing = false ∧
      ∀ index hash tick hashes uncertain,
        .entry index hash tick hashes uncertain ∈ (replay contents).2 → uncertain = false := by
  induction contents using List.reverseRecOn with
  | nil => exact ⟨rfl, by simp [replay]⟩
  | append_singleton front last ih =>
    obtain ⟨certain, entries⟩ := ih
    rw [replay, runAll_concat]
    refine ⟨certain, ?_⟩
    intro index hash tick hashes uncertain member
    rcases List.mem_append.mp member with earlier | final
    · exact entries _ _ _ _ _ earlier
    · have same := List.mem_singleton.mp final
      cases same
      exact certain

theorem replayedEvents_certain {slotKey : Nat} {contents : List EntryContent} {index : UInt32}
    {hash : Hash} {tick hashes : Nat} {uncertain : Bool}
    (member : .entry index hash tick hashes uncertain ∈ replayedEvents slotKey contents) :
    uncertain = false := by
  unfold replayedEvents at member
  split at member
  · cases member
  · rcases List.mem_append.mp member with emitted | ends
    · exact (replay_certain contents).2 _ _ _ _ _ emitted
    · exact absurd (List.mem_singleton.mp ends).symm (terminal_ne_entry _ _ _ _ _ _ _)

/-- The essences of what is sent. -/
def essences (effects : List SupervisorEffect) : List Essence :=
  (sent effects).map OrderedEvent.essence

@[simp] theorem essences_nil : essences [] = [] := rfl

@[simp] theorem essences_append (first second : List SupervisorEffect) :
    essences (first ++ second) = essences first ++ essences second := by
  simp [essences]

theorem essences_fetchMax (counter : Counter) (value : Nat) :
    essences [.fetchMax counter value] = [] := rfl

/-! ## Emissions, seen from the core -/

section Emissions

variable {slot : PohSlot} {merged : MergedEntry} {now : Instant}

theorem emitAtCursor_core (here : merged.observation.entryIndex = slot.nextExpectedIdx) :
    (emitAtCursor slot merged now).1.core = (slot.core.emit merged.observation.content).1 ∧
      essences (emitAtCursor slot merged now).2 =
        (slot.core.emit merged.observation.content).2 := by
  have sentEvent : sent (emitAtCursor slot merged now).2 =
      [entryEvent (slot.noted now) merged false 0] := sent_emitEntry _ _ _ _ _
  constructor
  · simp [emitAtCursor, PohSlot.core, Core.emit, here, countTick_eq, PohSlot.noted]
    exact ⟨rfl, rfl⟩
  · simp [essences, sentEvent, entryEvent, OrderedEvent.essence, PohSlot.core, Core.emit, here,
      countTick_eq, PohSlot.noted]
    exact ⟨rfl, rfl⟩

theorem emitPending_core {entry : PendingEntry}
    (here : entry.merged.observation.entryIndex = slot.nextExpectedIdx) :
    (emitPending now slot slot.nextExpectedIdx entry).1.core =
        (slot.core.emit entry.merged.observation.content).1 ∧
      essences (emitPending now slot slot.nextExpectedIdx entry).2 =
        (slot.core.emit entry.merged.observation.content).2 := by
  constructor
  · simp [PohSlot.core, Core.emit, countTick_eq]
    exact ⟨rfl, rfl, here⟩
  · simp [essences, sent_emitPending, entryEvent, OrderedEvent.essence, PohSlot.core, Core.emit,
      here, countTick_eq]
    exact ⟨rfl, rfl⟩

end Emissions

/-! ## One slot -/

/-- A slot has emitted the first `count` entries and buffers the other arrivals. -/
structure Reordered (contents : List EntryContent) (arrived : List UInt32) (slot : PohSlot)
    (events : List Essence) (count : Nat) : Prop where
  opened : slot.isSealed = false
  within : count ≤ contents.length
  replayed : (slot.core, events) = replay (contents.take count)
  cursor : slot.nextExpectedIdx = UInt32.ofNat count
  beyond : ∀ idx ∈ slot.pending, count ≤ idx.toNat
  buffered : ∀ (idx : UInt32) (entry : PendingEntry), slot.pending[idx]? = some entry →
    entry.merged.observation.entryIndex = idx ∧
      contents[idx.toNat]? = some entry.merged.observation.content
  arrivals : ∀ idx : UInt32, idx ∈ arrived ↔ idx.toNat < count ∨ idx ∈ slot.pending

/-- All entries of a slot have arrived. -/
def AllArrived (contents : List EntryContent) (arrived : List UInt32) : Prop :=
  ∀ place < contents.length, ∃ idx ∈ arrived, idx.toNat = place

theorem initial_reordered (contents : List EntryContent) : Reordered contents [] {} [] 0 where
  opened := rfl
  within := Nat.zero_le _
  replayed := rfl
  cursor := rfl
  beyond := by simp
  buffered := by simp
  arrivals := by simp

section OneSlot

variable {cfg : Config} {contents : List EntryContent} {arrived : List UInt32} {slot : PohSlot}
  {events : List Essence} {count : Nat}

theorem toNat_cursor {idx : UInt32} (place : idx.toNat = count) :
    UInt32.ofNat count = idx := by
  rw [← place, UInt32.ofNat_toNat]

/-- Popping the entry at the cursor continues the replay. -/
theorem Reordered.pop (reordered : Reordered contents arrived slot events count)
    {entry : PendingEntry} (found : firstEntry slot.pending = some (slot.nextExpectedIdx, entry))
    (now : Instant) :
    Reordered contents arrived (emitPending now slot slot.nextExpectedIdx entry).1
      (events ++ essences (emitPending now slot slot.nextExpectedIdx entry).2) (count + 1) := by
  have present := getElem?_of_firstEntry found
  have member := mem_of_firstEntry found
  obtain ⟨own, content⟩ := reordered.buffered _ entry present
  -- a buffered index is below `2 ^ 32`, so the cursor has not wrapped
  have place : slot.nextExpectedIdx.toNat = count := by
    have low := reordered.beyond _ member
    have bound := slot.nextExpectedIdx.toNat_lt
    rw [reordered.cursor, UInt32.toNat_ofNat'] at low bound ⊢
    omega
  rw [place] at content
  obtain ⟨core, emitted⟩ := @emitPending_core slot now entry own
  have before : slot.core = (replay (contents.take count)).1 ∧
      events = (replay (contents.take count)).2 := by
    rw [← reordered.replayed]
    exact ⟨rfl, rfl⟩
  have next := replay_take_succ content
  refine ⟨reordered.opened, ?_, ?_, ?_, ?_, ?_, ?_⟩
  · have inside := (List.getElem?_eq_some_iff.mp content).1
    exact inside
  · rw [core, emitted, next, before.1, before.2]
  · rw [emitPending_nextExpectedIdx, reordered.cursor, UInt32.ofNat_add]
    rfl
  · intro idx later
    rw [emitPending_pending] at later
    obtain ⟨apart, old⟩ := ExtTreeMap.mem_erase.mp later
    have low := reordered.beyond idx old
    have different : idx.toNat ≠ count := by
      intro same
      rw [reordered.cursor, toNat_cursor same] at apart
      simp at apart
    omega
  · intro idx waiting kept
    rw [emitPending_pending, ExtTreeMap.getElem?_erase] at kept
    split at kept
    · cases kept
    · exact reordered.buffered idx waiting kept
  · intro idx
    rw [reordered.arrivals, emitPending_pending, ExtTreeMap.mem_erase]
    by_cases here : idx = slot.nextExpectedIdx
    · subst here
      simp [place, member]
    · have apart : idx.toNat ≠ count :=
        fun same => here (UInt32.toNat_inj.mp (same.trans place.symm))
      have unequal : compare slot.nextExpectedIdx idx ≠ .eq := by
        intro same
        exact here (Std.LawfulEqOrd.eq_of_compare same).symm
      simp only [ne_eq, unequal, not_false_eq_true, true_and]
      constructor <;> rintro (low | waiting)
      · exact .inl (by omega)
      · exact .inr waiting
      · exact .inl (by omega)
      · exact .inr waiting

/-- The result of a step leaves the slot reordered. -/
def Continues (contents : List EntryContent) (arrived : List UInt32) (events : List Essence)
    (result : PohSlot × List SupervisorEffect) : Prop :=
  ∃ count, Reordered contents arrived result.1 (events ++ essences result.2) count

theorem Continues.after {first : List SupervisorEffect} {result : PohSlot × List SupervisorEffect}
    (continues : Continues contents arrived (events ++ essences first) result) :
    Continues contents arrived events (result.1, first ++ result.2) := by
  obtain ⟨count, reordered⟩ := continues
  refine ⟨count, ?_⟩
  rwa [List.append_assoc, ← essences_append] at reordered

/-- Draining the buffer continues the replay. -/
theorem Reordered.drain (reordered : Reordered contents arrived slot events count)
    (now : Instant) : Continues contents arrived events (drainConsecutivePending slot now) := by
  refine @runWhile_induction _ _ (drainBody now)
    (fun state effects => ∃ count', Reordered contents arrived state (events ++ essences effects)
      count') ?_ slot ⟨count, by simpa using reordered⟩ (loopBound slot)
  rintro state effects next more ⟨count', sofar⟩ iteration
  obtain ⟨entry, found, same⟩ := drainBody_eq_some iteration
  rw [Prod.mk.injEq] at same
  rw [same.1, same.2, essences_append, ← List.append_assoc]
  exact ⟨_, sofar.pop found now⟩

/-- The cursor is at or below an entry that has not arrived. -/
theorem Reordered.place_of_fresh (reordered : Reordered contents arrived slot events count)
    {idx : UInt32} (fresh : idx ∉ arrived) :
    count ≤ idx.toNat ∧ slot.nextExpectedIdx.toNat = count ∧ idx ∉ slot.pending := by
  have apart : ¬ (idx.toNat < count ∨ idx ∈ slot.pending) :=
    fun either => fresh ((reordered.arrivals idx).mpr either)
  obtain ⟨notBelow, notBuffered⟩ := not_or.mp apart
  have bound := idx.toNat_lt
  refine ⟨Nat.le_of_not_lt notBelow, ?_, notBuffered⟩
  rw [reordered.cursor, UInt32.toNat_ofNat']
  omega

/-- An entry that arrives at the cursor continues the replay. -/
theorem Reordered.emit (reordered : Reordered contents arrived slot events count)
    (quiet : CursorStrictlyBelow slot) {merged : MergedEntry}
    (fresh : merged.observation.entryIndex ∉ arrived)
    (content : contents[merged.observation.entryIndex.toNat]? = some merged.observation.content)
    (here : merged.observation.entryIndex = slot.nextExpectedIdx) (now : Instant) :
    Reordered contents (arrived ++ [merged.observation.entryIndex])
      (emitAtCursor slot merged now).1 (events ++ essences (emitAtCursor slot merged now).2)
      (count + 1) := by
  have inside := (List.getElem?_eq_some_iff.mp content).1
  obtain ⟨_, place, _⟩ := reordered.place_of_fresh fresh
  obtain ⟨core, emitted⟩ := @emitAtCursor_core slot merged now here
  have place' : merged.observation.entryIndex.toNat = count := by rw [here, place]
  rw [place'] at content inside
  have before : slot.core = (replay (contents.take count)).1 ∧
      events = (replay (contents.take count)).2 := by
    rw [← reordered.replayed]
    exact ⟨rfl, rfl⟩
  refine ⟨reordered.opened, inside, ?_, ?_, ?_, reordered.buffered, ?_⟩
  · rw [core, emitted, replay_take_succ content, before.1, before.2]
  · have moved : (emitAtCursor slot merged now).1.nextExpectedIdx = slot.nextExpectedIdx + 1 := rfl
    rw [moved, reordered.cursor, UInt32.ofNat_add]
    rfl
  · intro idx member
    have above := UInt32.lt_iff_toNat_lt.mp (quiet idx member)
    omega
  · intro idx
    have same : (emitAtCursor slot merged now).1.pending = slot.pending := rfl
    rw [List.mem_append, List.mem_singleton, reordered.arrivals, same, ← UInt32.toNat_inj, place']
    constructor
    · rintro ((low | waiting) | now')
      · exact .inl (by omega)
      · exact .inr waiting
      · exact .inl (by omega)
    · rintro (low | waiting)
      · by_cases last : idx.toNat = count
        · exact .inr last
        · exact .inl (.inl (by omega))
      · exact .inl (.inr waiting)

/-- An entry that arrives above the cursor is buffered. -/
theorem Reordered.buffer (reordered : Reordered contents arrived slot events count)
    {merged : MergedEntry}
    (fresh : merged.observation.entryIndex ∉ arrived)
    (content : contents[merged.observation.entryIndex.toNat]? = some merged.observation.content)
    (now : Instant) :
    Reordered contents (arrived ++ [merged.observation.entryIndex])
      { slot.noted now with
        pending := slot.pending.insert merged.observation.entryIndex ⟨merged, now⟩ }
      events count where
  opened := reordered.opened
  within := reordered.within
  replayed := reordered.replayed
  cursor := reordered.cursor
  beyond := by
    intro idx member
    rcases ExtTreeMap.mem_insert.mp member with same | old
    · have equal : merged.observation.entryIndex = idx := Std.LawfulEqOrd.eq_of_compare same
      have inside := (List.getElem?_eq_some_iff.mp content).1
      exact equal ▸ (reordered.place_of_fresh fresh).1
    · exact reordered.beyond idx old
  buffered := by
    intro idx entry present
    rw [ExtTreeMap.getElem?_insert] at present
    split at present
    · next same =>
      have equal : merged.observation.entryIndex = idx := Std.LawfulEqOrd.eq_of_compare same
      cases present
      exact ⟨equal, equal ▸ content⟩
    · exact reordered.buffered idx entry present
  arrivals := by
    intro idx
    rw [List.mem_append, List.mem_singleton, reordered.arrivals]
    have inserted : idx ∈ slot.pending.insert merged.observation.entryIndex ⟨merged, now⟩ ↔
        idx = merged.observation.entryIndex ∨ idx ∈ slot.pending := by
      rw [ExtTreeMap.mem_insert]
      constructor
      · rintro (same | old)
        · exact .inl (Std.LawfulEqOrd.eq_of_compare same).symm
        · exact .inr old
      · rintro (rfl | old)
        · exact .inl (by simp)
        · exact .inr old
    rw [inserted, or_assoc]
    exact or_congr_right or_comm

/-- **A new arrival keeps the slot reordered.** -/
theorem Reordered.arrive (reordered : Reordered contents arrived slot events count)
    (quiet : CursorStrictlyBelow slot) {merged : MergedEntry}
    (fresh : merged.observation.entryIndex ∉ arrived)
    (content : contents[merged.observation.entryIndex.toNat]? = some merged.observation.content)
    (room : WithinCapacity cfg slot merged.observation) (now : Instant) :
    Continues contents (arrived ++ [merged.observation.entryIndex]) events
      (processSlot cfg slot merged now) := by
  have inside := (List.getElem?_eq_some_iff.mp content).1
  obtain ⟨low, place, _⟩ := reordered.place_of_fresh fresh
  by_cases here : merged.observation.entryIndex = slot.nextExpectedIdx
  · rw [processSlot_emit reordered.opened here]
    exact ((reordered.emit quiet fresh content here now).drain now).after
  · have apart : merged.observation.entryIndex.toNat ≠ slot.nextExpectedIdx.toNat :=
      fun same => here (UInt32.toNat_inj.mp same)
    have above : slot.nextExpectedIdx < merged.observation.entryIndex :=
      UInt32.lt_iff_toNat_lt.mpr (by omega)
    rw [processSlot_buffer reordered.opened above (room above)]
    refine ⟨count, ?_⟩
    rw [essences_fetchMax, List.append_nil]
    exact reordered.buffer fresh content now

/-- Once all entries have arrived, all are emitted. -/
theorem Reordered.complete (reordered : Reordered contents arrived slot events count)
    (quiet : CursorStrictlyBelow slot) (all : AllArrived contents arrived) :
    count = contents.length ∧ slot.pending = ∅ := by
  have whole : count = contents.length := by
    by_contra short
    have inside : count < contents.length := Nat.lt_of_le_of_ne reordered.within short
    obtain ⟨idx, member, place⟩ := all count inside
    rcases (reordered.arrivals idx).mp member with low | waiting
    · omega
    · have above := quiet idx waiting
      rw [reordered.cursor, toNat_cursor place] at above
      exact UInt32.lt_irrefl _ above
  refine ⟨whole, ?_⟩
  by_contra nonempty
  obtain ⟨first, entry, found⟩ := firstEntry_of_ne_empty nonempty
  have beyond := reordered.beyond first (mem_of_firstEntry found)
  have content := (reordered.buffered first entry (getElem?_of_firstEntry found)).2
  have inside := (List.getElem?_eq_some_iff.mp content).1
  omega

/-- A sweep finds no gap that has waited too long. -/
def NoGapExpires (cfg : Config) (slot : PohSlot) (now : Instant) : Prop :=
  ∀ first entry, firstEntry slot.pending = some (first, entry) →
    saturatingDurationSince now entry.bufferedAt < cfg.entryTimeout

/-- A sweep leaves the gaps alone that have not waited long enough. -/
theorem advanceGaps_idle (quiet : CursorStrictlyBelow slot) {now : Instant}
    (patient : NoGapExpires cfg slot now) (slotKey : Nat) :
    advanceGaps cfg now slotKey slot = (slot, []) := by
  unfold advanceGaps
  split
  · rfl
  · refine runWhile_of_break ?_ _
    unfold gapBody
    split
    · next first entry found =>
      have above := quiet first (mem_of_firstEntry found)
      have different : ¬ first = slot.nextExpectedIdx := by
        intro same
        exact UInt32.lt_irrefl _ (same ▸ above)
      rw [if_neg different, if_neg (Nat.not_le.mpr (patient first entry found))]
    · rfl

/-- **A slot whose entries have all arrived ends as the replay ends.** -/
theorem Reordered.seal (reordered : Reordered contents arrived slot events count)
    (quiet : CursorStrictlyBelow slot) (all : AllArrived contents arrived) (slotKey : Nat)
    (now : Instant) :
    (sealState cfg now slotKey slot).1.isSealed = true ∧
      events ++ essences (sealState cfg now slotKey slot).2 =
        (replay contents).2 ++ [(replay contents).1.terminal slotKey] := by
  obtain ⟨whole, emptied⟩ := reordered.complete quiet all
  have before : slot.core = (replay contents).1 ∧ events = (replay contents).2 := by
    have replayed := reordered.replayed
    rw [whole, List.take_length] at replayed
    rw [← replayed]
    exact ⟨rfl, rfl⟩
  rw [sealState_opened reordered.opened, flushPending_of_empty emptied]
  refine ⟨rfl, ?_⟩
  rw [List.nil_append, essences, sent_closingEffects, List.map_singleton, terminalEvent_essence,
    before.1, before.2]

end OneSlot

end PohSupervisor

end SenderAnalysis

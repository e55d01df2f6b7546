import Mathlib.Data.Finset.Card
import SenderAnalysis.Foundations.Traces
import SenderAnalysis.FanOut.Samples
import SenderAnalysis.FanOut.PohSupervisor.Lifecycle

/-!
# Counting the ticks of a slot

The terminal event of a slot reports how many ticks were seen. Ticks are counted
in two places: when an entry is emitted at the cursor, and when an entry arrives
below the cursor. The second place is there for a tick whose index was reported
missing, "a tick entry we'd otherwise lose", but it does not look whether the
index was counted before: a duplicate of an emitted tick is counted twice.

`CountsOnce` is the condition under which an arrival is counted right, in terms of
the state it finds and of what came before. In a run whose arrivals all meet it,
every terminal event reports the number of distinct ticks received, up to 64
(`ticks_exact`), and a second arrival of an emitted index changes nothing.
-/

set_option autoImplicit false

namespace SenderAnalysis

/-- The indices of the ticks among the entries. -/
def tickIndices (arrivals : List MergedEntry) : Finset UInt32 :=
  ((arrivals.filter fun merged => merged.observation.isTick).map
    fun merged => merged.observation.entryIndex).toFinset

@[simp] theorem tickIndices_nil : tickIndices [] = ∅ := rfl

theorem tickIndices_concat (arrivals : List MergedEntry) (merged : MergedEntry) :
    tickIndices (arrivals ++ [merged]) =
      if merged.observation.isTick then
        insert merged.observation.entryIndex (tickIndices arrivals)
      else tickIndices arrivals := by
  unfold tickIndices
  by_cases tick : merged.observation.isTick = true
  · ext idx
    simp [tick]
  · simp [tick]

namespace PohSupervisor

open Std OrderedMap

/-- The cursor has run through all 32-bit indices. -/
def Wrapped (slot : PohSlot) : Prop :=
  slot.nextExpectedIdx = 0 ∧ slot.lastEntryHash.isSome = true ∧ slot.pending = ∅

/-- The ticks received that are not waiting in the buffer. -/
def passedTicks (slot : PohSlot) (ticks : Finset UInt32) : Finset UInt32 :=
  ticks.filter fun idx => idx ∉ slot.pending

/-- The tick count of an open slot, when the ticks received are the given ones. -/
structure Counted (slot : PohSlot) (ticks : Finset UInt32) (events : List OrderedEvent) : Prop where
  buffered : ∀ (idx : UInt32) (entry : PendingEntry), slot.pending[idx]? = some entry →
    (entry.merged.observation.isTick = true ↔ idx ∈ ticks)
  counted : slot.tickIdx = min ticksPerSlot (passedTicks slot ticks).card
  passed : Wrapped slot ∨
    (∀ idx ∈ passedTicks slot ticks, idx < slot.nextExpectedIdx) ∧
      ∀ e, OrderedEvent.entry e ∈ events → e.entryIndex < slot.nextExpectedIdx

theorem initial_counted : Counted {} ∅ [] where
  buffered := by
    intro idx entry present
    simp at present
  counted := rfl
  passed := .inr ⟨by simp [passedTicks], by simp⟩

/-- An arrival at an open slot is counted right: the cursor has not wrapped, a late
tick that moves the count is of an index that was neither emitted nor received as
a tick before, and no buffered tick is displaced by an entry that is none. -/
def CountsOnce (slot : PohSlot) (ticks : Finset UInt32) (events : List OrderedEvent)
    (observation : EntryObservation) : Prop :=
  (slot.nextExpectedIdx = 0 → slot.lastEntryHash = none) ∧
    (observation.entryIndex < slot.nextExpectedIdx → observation.isTick = true →
      slot.tickIdx < ticksPerSlot → observation.entryIndex ∉ ticks ∧
        ∀ e, OrderedEvent.entry e ∈ events → e.entryIndex ≠ observation.entryIndex) ∧
    (observation.isTick = false → ∀ entry, slot.pending[observation.entryIndex]? = some entry →
      entry.merged.observation.isTick = false)

/-- The buffer has room for an arrival above the cursor. -/
def WithinCapacity (cfg : Config) (slot : PohSlot) (observation : EntryObservation) : Prop :=
  slot.nextExpectedIdx < observation.entryIndex → slot.pending.size < cfg.maxPendingPerSlot

/-! ## Counting one entry -/

theorem isTick_iff (observation : EntryObservation) :
    observation.isTick = true ↔ observation.txCount = 0 := by
  simp [EntryObservation.isTick]

theorem countTick_of_not_tick {observation : EntryObservation} {tickIdx : Nat}
    (data : observation.isTick = false) : countTick tickIdx observation = tickIdx := by
  have nonzero : ¬ observation.txCount = 0 := by
    rw [← isTick_iff, data]
    simp
  simp [countTick, nonzero]

theorem countTick_of_tick {observation : EntryObservation} {count : Nat}
    (tick : observation.isTick = true) :
    countTick (min ticksPerSlot count) observation = min ticksPerSlot (count + 1) := by
  have zero := (isTick_iff observation).mp tick
  simp only [countTick, zero, true_and, saturatingAdd, ticksPerSlot]
  split <;> omega

section Counting

variable {slot next : PohSlot} {ticks : Finset UInt32} {events : List OrderedEvent}

theorem Counted.notWrapped (counted : Counted slot ticks events)
    (fresh : slot.nextExpectedIdx = 0 → slot.lastEntryHash = none) :
    (∀ idx ∈ passedTicks slot ticks, idx < slot.nextExpectedIdx) ∧
      ∀ e, OrderedEvent.entry e ∈ events → e.entryIndex < slot.nextExpectedIdx := by
  rcases counted.passed with ⟨zero, emitted, _⟩ | passed
  · rw [fresh zero] at emitted
    cases emitted
  · exact passed

/-- Of the ticks, the cursor passes the emitted one and no other. -/
theorem passedTicks_entry {ticks' : Finset UInt32} (tick : Bool)
    (member : ∀ idx, idx ∈ ticks' ↔ idx ∈ ticks ∨ (tick = true ∧ idx = slot.nextExpectedIdx))
    (own : slot.nextExpectedIdx ∈ ticks' ↔ tick = true)
    (buffer : ∀ idx, next.pending[idx]? =
      if idx = slot.nextExpectedIdx then none else slot.pending[idx]?) :
    passedTicks next ticks' =
      if tick then insert slot.nextExpectedIdx (passedTicks slot ticks)
      else passedTicks slot ticks := by
  have outside : ∀ idx, idx ∉ next.pending ↔ idx ∉ slot.pending ∨ idx = slot.nextExpectedIdx := by
    intro idx
    rw [ExtTreeMap.mem_iff_isSome_getElem?, ExtTreeMap.mem_iff_isSome_getElem?, buffer]
    by_cases here : idx = slot.nextExpectedIdx <;> simp [here]
  ext idx
  have here := own
  by_cases same : idx = slot.nextExpectedIdx
  · subst same
    cases tick <;> simp_all [passedTicks]
  · cases tick <;> simp [passedTicks, member, outside, same]

/-- A move that emits the entry at the cursor. -/
theorem Counted.entry {ticks' : Finset UInt32} {e : OrderedEntry} (tick : Bool)
    (counted : Counted slot ticks events)
    (passed : (∀ idx ∈ passedTicks slot ticks, idx < slot.nextExpectedIdx) ∧
      ∀ e, OrderedEvent.entry e ∈ events → e.entryIndex < slot.nextExpectedIdx)
    (member : ∀ idx, idx ∈ ticks' ↔ idx ∈ ticks ∨ (tick = true ∧ idx = slot.nextExpectedIdx))
    (own : slot.nextExpectedIdx ∈ ticks' ↔ tick = true)
    (index : e.entryIndex = slot.nextExpectedIdx)
    (buffer : ∀ idx, next.pending[idx]? =
      if idx = slot.nextExpectedIdx then none else slot.pending[idx]?)
    (strict : ∀ idx ∈ next.pending, slot.nextExpectedIdx < idx)
    (cursor : next.nextExpectedIdx = slot.nextExpectedIdx + 1)
    (hash : next.lastEntryHash.isSome = true)
    (count : next.tickIdx = min ticksPerSlot
      ((passedTicks slot ticks).card + if tick then 1 else 0)) :
    Counted next ticks' (events ++ [.entry e]) := by
  have fresh : slot.nextExpectedIdx ∉ passedTicks slot ticks := by
    intro old
    exact UInt32.lt_irrefl _ (passed.1 _ old)
  have grown := passedTicks_entry tick member own buffer
  refine ⟨?_, ?_, ?_⟩
  · intro idx entry present
    rw [buffer] at present
    split at present
    · cases present
    · next different =>
      rw [counted.buffered idx entry present, member]
      simp [different]
  · rw [count, grown]
    cases tick with
    | true => simp [Finset.card_insert_of_notMem fresh]
    | false => simp
  · rcases succ_wraps_or slot.nextExpectedIdx with ⟨zero, last⟩ | more
    · refine .inl ⟨cursor.trans zero, hash, ?_⟩
      by_contra nonempty
      obtain ⟨first, entry, found⟩ := firstEntry_of_ne_empty nonempty
      exact last first (strict first (mem_of_firstEntry found))
    · refine .inr ⟨?_, ?_⟩
      · intro idx present
        rw [cursor]
        rw [grown] at present
        have cases : idx = slot.nextExpectedIdx ∨ idx ∈ passedTicks slot ticks := by
          cases tick <;> simp_all
        rcases cases with rfl | old
        · exact more
        · exact UInt32.lt_trans (passed.1 idx old) more
      · intro other emitted
        rw [cursor]
        rcases List.mem_append.mp emitted with old | new
        · exact UInt32.lt_trans (passed.2 other old) more
        · cases List.mem_singleton.mp new
          rw [index]
          exact more

/-- A state with the same buffer, cursor, count and hash is counted the same. -/
theorem Counted.congr {ticks' : Finset UInt32} (counted : Counted slot ticks events)
    (buffer : next.pending = slot.pending) (cursor : next.nextExpectedIdx = slot.nextExpectedIdx)
    (hash : next.lastEntryHash = slot.lastEntryHash) (count : next.tickIdx = slot.tickIdx)
    (same : ticks' = ticks) : Counted next ticks' events := by
  subst same
  obtain ⟨buffered, counts, passed⟩ := counted
  refine ⟨?_, ?_, ?_⟩
  · rw [buffer]
    exact buffered
  · rw [count, counts, passedTicks, passedTicks, buffer]
  · rw [Wrapped, passedTicks, cursor, hash, buffer]
    exact passed

/-- A late arrival that is counted right. -/
theorem Counted.late {observation : EntryObservation} {ticks' : Finset UInt32}
    (counted : Counted slot ticks events) (below : CursorBelow slot)
    (once : CountsOnce slot ticks events observation)
    (late : observation.entryIndex < slot.nextExpectedIdx)
    (received : ticks' = if observation.isTick then insert observation.entryIndex ticks else ticks)
    (buffer : next.pending = slot.pending) (cursor : next.nextExpectedIdx = slot.nextExpectedIdx)
    (hash : next.lastEntryHash = slot.lastEntryHash)
    (count : next.tickIdx = countTick slot.tickIdx observation) :
    Counted next ticks' events := by
  have passed := counted.notWrapped once.1
  have absent : observation.entryIndex ∉ slot.pending := by
    intro member
    exact UInt32.lt_irrefl _ (UInt32.lt_of_lt_of_le late (below _ member))
  cases tick : observation.isTick with
  | false =>
    refine counted.congr buffer cursor hash ?_ (by simpa [tick] using received)
    rw [count, countTick_of_not_tick tick]
  | true =>
    rw [tick, if_pos rfl] at received
    subst received
    have grown : passedTicks next (insert observation.entryIndex ticks) =
        insert observation.entryIndex (passedTicks slot ticks) := by
      ext idx
      by_cases same : idx = observation.entryIndex
      · subst same
        simp [passedTicks, buffer, absent]
      · simp [passedTicks, buffer, same]
    refine ⟨?_, ?_, ?_⟩
    · intro idx entry present
      rw [buffer] at present
      have different : idx ≠ observation.entryIndex := by
        rintro rfl
        exact absent (ExtTreeMap.mem_iff_isSome_getElem?.mpr (by simp [present]))
      rw [counted.buffered idx entry present]
      simp [different]
    · rw [count, counted.counted, countTick_of_tick tick, grown]
      by_cases room : slot.tickIdx < ticksPerSlot
      · -- The count moves, so the index is new.
        have fresh : observation.entryIndex ∉ passedTicks slot ticks := by
          intro old
          exact (once.2.1 late tick room).1 (Finset.mem_filter.mp old).1
        rw [Finset.card_insert_of_notMem fresh]
      · have full := counted.counted
        have more := Finset.card_le_card
          (Finset.subset_insert observation.entryIndex (passedTicks slot ticks))
        omega
    · refine .inr ⟨?_, ?_⟩
      · intro idx member
        rw [grown] at member
        rw [cursor]
        rcases Finset.mem_insert.mp member with rfl | old
        · exact late
        · exact passed.1 idx old
      · rw [cursor]
        exact passed.2

/-- An arrival that is buffered and displaces no tick. -/
theorem Counted.buffer {merged : MergedEntry} {now : Instant} {ticks' : Finset UInt32}
    (counted : Counted slot ticks events)
    (once : CountsOnce slot ticks events merged.observation)
    (above : slot.nextExpectedIdx < merged.observation.entryIndex)
    (received : ticks' = if merged.observation.isTick then
      insert merged.observation.entryIndex ticks else ticks)
    (buffer : next.pending = slot.pending.insert merged.observation.entryIndex ⟨merged, now⟩)
    (cursor : next.nextExpectedIdx = slot.nextExpectedIdx)
    (count : next.tickIdx = slot.tickIdx) :
    Counted next ticks' events := by
  have passed := counted.notWrapped once.1
  have member : ∀ idx, idx ≠ merged.observation.entryIndex → (idx ∈ ticks' ↔ idx ∈ ticks) := by
    intro idx different
    rw [received]
    split <;> simp [different]
  have own : merged.observation.isTick = true ↔ merged.observation.entryIndex ∈ ticks' := by
    rw [received]
    cases tick : merged.observation.isTick with
    | true => simp
    | false =>
      simp only [Bool.false_eq_true, if_false, false_iff]
      intro listed
      cases held : slot.pending[merged.observation.entryIndex]? with
      | none =>
        have outside : merged.observation.entryIndex ∉ slot.pending := by
          rw [ExtTreeMap.mem_iff_isSome_getElem?, held]
          simp
        have low := passed.1 _ (Finset.mem_filter.mpr ⟨listed, outside⟩)
        exact UInt32.lt_irrefl _ (UInt32.lt_trans low above)
      | some entry =>
        have data := once.2.2 tick entry held
        rw [(counted.buffered _ entry held).mpr listed] at data
        cases data
  have same : passedTicks next ticks' = passedTicks slot ticks := by
    ext idx
    by_cases here : idx = merged.observation.entryIndex
    · subst here
      have listed : merged.observation.entryIndex ∈ next.pending := by
        rw [buffer]
        exact ExtTreeMap.mem_insert_self
      have low : merged.observation.entryIndex ∉ passedTicks slot ticks := fun old =>
        UInt32.lt_irrefl _ (UInt32.lt_trans (passed.1 _ old) above)
      have gone : merged.observation.entryIndex ∉ passedTicks next ticks' := fun old =>
        (Finset.mem_filter.mp old).2 listed
      exact iff_of_false gone low
    · have apart : ¬ merged.observation.entryIndex = idx := fun equal => here equal.symm
      simp [passedTicks, member idx here, buffer, apart]
  refine ⟨?_, ?_, ?_⟩
  · intro idx entry present
    rw [buffer, ExtTreeMap.getElem?_insert] at present
    split at present
    · next equal =>
      have here : merged.observation.entryIndex = idx := compare_eq_iff_eq.mp equal
      cases present
      rw [← here]
      exact own
    · next different =>
      have apart : idx ≠ merged.observation.entryIndex :=
        fun equal => different (compare_eq_iff_eq.mpr equal.symm)
      rw [counted.buffered idx entry present, member idx apart]
  · rw [count, counted.counted, same]
  · rw [same, cursor]
    exact .inr passed

end Counting

/-! ## Counting over the moves of a slot -/

/-- The ticks received once an input is consumed. -/
def ticksAfter (ticks : Finset UInt32) : Option SlotInput → Finset UInt32
  | some (.arrive merged _) =>
      if merged.observation.isTick then insert merged.observation.entryIndex ticks else ticks
  | some (.advance _) | some (.sealing _) | none => ticks

theorem terminalEvent_lastTick? (slotKey : Nat) (slot : PohSlot) :
    (terminalEvent slotKey slot).lastTick? = some slot.tickIdx := by
  unfold terminalEvent
  split <;> rfl

/-- The terminal events among the events report the number of the ticks, and a
slot is complete only with all its ticks. -/
def ReportsTicks (ticks : Finset UInt32) (events : List OrderedEvent) : Prop :=
  ∀ event ∈ events, event.isTerminal = true →
    event.lastTick? = some (min ticksPerSlot ticks.card) ∧
      ∀ c, event = .slotComplete c → ticksPerSlot ≤ ticks.card

theorem ticks_of_slotComplete {slotKey : Nat} {slot : PohSlot} {c : OrderedSlotComplete}
    (complete : terminalEvent slotKey slot = .slotComplete c) : ticksPerSlot ≤ slot.tickIdx := by
  unfold terminalEvent at complete
  split at complete
  · next reached => exact reached
  · cases complete

theorem reportsTicks_append {ticks : Finset UInt32} {first second : List OrderedEvent}
    (reports : ReportsTicks ticks first) (reports' : ReportsTicks ticks second) :
    ReportsTicks ticks (first ++ second) := by
  intro event member terminal
  rcases List.mem_append.mp member with old | new
  · exact reports event old terminal
  · exact reports' event new terminal

/-- The count after one more entry. -/
theorem countTick_min (count : Nat) (observation : EntryObservation) :
    countTick (min ticksPerSlot count) observation =
      min ticksPerSlot (count + if observation.isTick then 1 else 0) := by
  cases tick : observation.isTick with
  | true => simp [countTick_of_tick tick]
  | false => simp [countTick_of_not_tick tick]

section Moves

variable {slot : PohSlot} {ticks : Finset UInt32} {events : List OrderedEvent}

/-- While something is buffered the cursor has not wrapped. -/
theorem Counted.passed_of_found (counted : Counted slot ticks events) {first : UInt32}
    {entry : PendingEntry} (found : firstEntry slot.pending = some (first, entry)) :
    (∀ idx ∈ passedTicks slot ticks, idx < slot.nextExpectedIdx) ∧
      ∀ e, OrderedEvent.entry e ∈ events → e.entryIndex < slot.nextExpectedIdx := by
  refine counted.passed.resolve_left fun wrapped => ?_
  have held := getElem?_of_firstEntry found
  rw [wrapped.2.2] at held
  simp at held

/-- An arrival at the cursor is emitted. -/
theorem Counted.emit (counted : Counted slot ticks events) (strict : CursorStrictlyBelow slot)
    {merged : MergedEntry} (here : merged.observation.entryIndex = slot.nextExpectedIdx)
    (once : CountsOnce slot ticks events merged.observation) (now : Instant) :
    Counted (emitAtCursor slot merged now).1 (ticksAfter ticks (some (.arrive merged now)))
      (events ++ [entryEvent (slot.noted now) merged false 0]) := by
  have passed := counted.notWrapped once.1
  have outside : slot.nextExpectedIdx ∉ slot.pending := fun member =>
    UInt32.lt_irrefl _ (strict _ member)
  have unseen : slot.nextExpectedIdx ∉ ticks := fun listed =>
    UInt32.lt_irrefl _ (passed.1 _ (Finset.mem_filter.mpr ⟨listed, outside⟩))
  refine counted.entry merged.observation.isTick passed ?_ ?_ here ?_ strict rfl rfl ?_
  · intro idx
    cases tick : merged.observation.isTick <;> simp [ticksAfter, tick, here, or_comm]
  · cases tick : merged.observation.isTick <;> simp [ticksAfter, tick, here, unseen]
  · intro idx
    show slot.pending[idx]? = _
    split
    · next same =>
      rw [same]
      exact ExtTreeMap.getElem?_eq_none outside
    · rfl
  · show countTick slot.tickIdx merged.observation = _
    rw [counted.counted, countTick_min]

/-- The first buffered entry is emitted at the cursor. -/
theorem Counted.pop (counted : Counted slot ticks events) {slotKey : Nat}
    (below : CursorBelow slot) (placed : Placed slotKey slot) {entry : PendingEntry}
    (found : firstEntry slot.pending = some (slot.nextExpectedIdx, entry)) (now : Instant)
    {e : OrderedEntry} (index : e.entryIndex = entry.merged.observation.entryIndex) :
    Counted (emitPending now slot slot.nextExpectedIdx entry).1 ticks (events ++ [.entry e]) := by
  have held := getElem?_of_firstEntry found
  refine counted.entry entry.merged.observation.isTick (counted.passed_of_found found) ?_
    (counted.buffered _ entry held).symm (index.trans (placed _ entry held).2) ?_ ?_ rfl rfl ?_
  · intro idx
    constructor
    · exact .inl
    · rintro (old | ⟨tick, rfl⟩)
      · exact old
      · exact (counted.buffered _ entry held).mp tick
  · intro idx
    rw [emitPending_pending, ExtTreeMap.getElem?_erase]
    by_cases same : idx = slot.nextExpectedIdx
    · simp [same]
    · have apart : ¬ slot.nextExpectedIdx = idx := fun equal => same equal.symm
      simp [same, apart]
  · intro idx member
    obtain ⟨apart, old⟩ := ExtTreeMap.mem_erase.mp member
    exact lt_of_le_of_ne (below idx old) fun same => apart (by simp [same])
  · show countTick slot.tickIdx entry.merged.observation = _
    rw [counted.counted, countTick_min]

/-- The cursor is stepped over a gap. -/
theorem Counted.skip (counted : Counted slot ticks events) {first : UInt32} {entry : PendingEntry}
    (found : firstEntry slot.pending = some (first, entry)) (gap : slot.nextExpectedIdx < first)
    (cfg : Config) (slotKey : Nat) (now : Instant) (m : OrderedMissing) :
    Counted (emitMissing cfg slotKey now slot).1 ticks (events ++ [.missing m]) := by
  have passed := counted.passed_of_found found
  have more : slot.nextExpectedIdx < slot.nextExpectedIdx + 1 :=
    (succ_wraps_or slot.nextExpectedIdx).resolve_left fun wraps => wraps.2 first gap
  refine ⟨counted.buffered, counted.counted, .inr ⟨?_, ?_⟩⟩
  · intro idx member
    exact UInt32.lt_trans (passed.1 idx member) more
  · intro e emitted
    have old : OrderedEvent.entry e ∈ events := by simpa using emitted
    exact UInt32.lt_trans (passed.2 e old) more

/-- A slot with nothing buffered reports the count when it is closed. -/
theorem Counted.reports (counted : Counted slot ticks events) (emptied : slot.pending = ∅)
    (slotKey : Nat) : ReportsTicks ticks [terminalEvent slotKey slot] := by
  intro event member _
  rw [List.mem_singleton] at member
  have all : passedTicks slot ticks = ticks := by simp [passedTicks, emptied]
  have count := counted.counted
  rw [all] at count
  refine ⟨by rw [member, terminalEvent_lastTick?, count], ?_⟩
  intro c complete
  have reached := ticks_of_slotComplete (member ▸ complete)
  omega

end Moves

/-- **A move of an open slot keeps the count, and a slot that is closed reports
it.** -/
theorem Move.counted {cfg : Config} {slotKey : Nat} {slot : PohSlot} {label : Option SlotInput}
    {result : PohSlot × List SupervisorEffect} {ticks : Finset UInt32}
    {events : List OrderedEvent} (move : Move cfg slotKey slot label result)
    (opened : slot.isSealed = false) (counted : Counted slot ticks events)
    (below : CursorBelow slot) (quiet : label.isSome → CursorStrictlyBelow slot)
    (placed : Placed slotKey slot)
    (fine : ∀ merged now, label = some (.arrive merged now) →
      WithinCapacity cfg slot merged.observation ∧
        CountsOnce slot ticks events merged.observation) :
    (result.1.isSealed = false →
      Counted result.1 (ticksAfter ticks label) (events ++ sent result.2)) ∧
    ReportsTicks ticks (sent result.2) := by
  cases move with
  | afterSeal merged now closed =>
    rw [opened] at closed
    cases closed
  | advance now => simpa [ReportsTicks, ticksAfter] using fun _ : _ = false => counted
  | sealing now => simpa [ReportsTicks, ticksAfter] using fun _ : _ = false => counted
  | emit merged now _ here =>
    refine ⟨fun _ => ?_, by simp [ReportsTicks, emitAtCursor, entryEvent, OrderedEvent.isTerminal]⟩
    have event : sent (emitAtCursor slot merged now).2 =
        [entryEvent (slot.noted now) merged false 0] := rfl
    rw [event]
    exact counted.emit (quiet rfl) here (fine merged now rfl).2 now
  | buffer merged now _ above room =>
    refine ⟨fun _ => ?_, by simp [ReportsTicks]⟩
    simp only [sent_fetchMax, sent_nil, List.append_nil]
    exact counted.buffer (fine merged now rfl).2 above rfl rfl rfl rfl
  | refuse merged now _ above full =>
    have room := (fine merged now rfl).1 above
    omega
  | late merged now _ late =>
    refine ⟨fun _ => ?_, by simp [ReportsTicks]⟩
    simp only [sent_fetchAdd, sent_nil, List.append_nil]
    exact counted.late below (fine merged now rfl).2 late rfl rfl rfl rfl rfl
  | pop now entry _ found =>
    refine ⟨fun _ => ?_, by simp [ReportsTicks, entryEvent, OrderedEvent.isTerminal]⟩
    rw [sent_emitPending]
    exact counted.pop below placed found now rfl
  | skip now first entry _ found gap =>
    obtain ⟨waited, event⟩ := sent_emitMissing cfg slotKey slot now
    refine ⟨fun _ => ?_, by simp [ReportsTicks, event, OrderedEvent.isTerminal]⟩
    rw [event]
    exact counted.skip found gap cfg slotKey now _
  | close now _ emptied =>
    refine ⟨by simp, ?_⟩
    rw [sent_closingEffects]
    exact counted.reports emptied slotKey

/-- Moves that consume no input keep the count. -/
theorem Moves.counted {cfg : Config} {slotKey : Nat} {start slot : PohSlot}
    {effects : List SupervisorEffect} {ticks : Finset UInt32} {events : List OrderedEvent}
    (moves : Moves cfg slotKey start slot effects) (placed : Placed slotKey start)
    (counted : start.isSealed = false → Counted start ticks events) :
    (slot.isSealed = false → Counted slot ticks (events ++ sent effects)) ∧
      ReportsTicks ticks (sent effects) := by
  induction moves with
  | done => simpa [ReportsTicks] using counted
  | snoc earlier below move ih =>
    have opened := move.opened_of_none
    obtain ⟨next, reports⟩ := move.counted opened (ih.1 opened) below (by simp)
      (earlier.placed placed).1 (by simp)
    rw [sent_append, ← List.append_assoc]
    exact ⟨next, reportsTicks_append ih.2 reports⟩

/-! ## Counting over an incarnation -/

/-- The ticks among the arrivals of an incarnation. -/
def ticksOf (own : List SlotInput) : Finset UInt32 :=
  tickIndices (own.filterMap SlotInput.arrival?)

theorem ticksOf_concat (past : List SlotInput) (label : Option SlotInput) :
    ticksOf (past ++ label.toList) = ticksAfter (ticksOf past) label := by
  rcases label with _ | ⟨merged, now⟩ | now | now
  · simp [ticksAfter]
  · simp [ticksOf, ticksAfter, SlotInput.arrival?, tickIndices_concat]
  · simp [ticksOf, ticksAfter, SlotInput.arrival?, List.filterMap_cons]
  · simp [ticksOf, ticksAfter, SlotInput.arrival?, List.filterMap_cons]

/-- An arrival that finds the incarnation open is counted right and has room. -/
def CountedArrival (cfg : Config) (slotKey : Nat) (past : List SlotInput) (input : SlotInput) :
    Prop :=
  ∀ merged now, input = .arrive merged now → (slotRun cfg slotKey past).1.isSealed = false →
    WithinCapacity cfg (slotRun cfg slotKey past).1 merged.observation ∧
      CountsOnce (slotRun cfg slotKey past).1 (ticksOf past) (incarnationEvents cfg slotKey past)
        merged.observation

/-- **While an incarnation is open its ticks are counted once each.** -/
theorem slotRun_counted (cfg : Config) (slotKey : Nat) (own : List SlotInput)
    (belong : ∀ input ∈ own, input.BelongsTo slotKey)
    (each : EachAfter (CountedArrival cfg slotKey) own)
    (opened : (slotRun cfg slotKey own).1.isSealed = false) :
    Counted (slotRun cfg slotKey own).1 (ticksOf own) (incarnationEvents cfg slotKey own) := by
  refine @incarnation_induction cfg slotKey
    (fun past slot effects => EachAfter (CountedArrival cfg slotKey) past →
      slot.isSealed = false → Counted slot (ticksOf past) (sent effects))
    (fun input => input.BelongsTo slotKey) (fun _ belongs => belongs)
    (fun _ _ => initial_counted) ?_ own belong each opened
  intro past slot effects label result holds below placed fine move each opened
  rw [sent_append, ticksOf_concat]
  have open' := move.opened_before opened
  have earlier := holds each.of_append open'
  refine (move.counted open' earlier below ?_ placed ?_).1 opened
  · intro some?
    obtain ⟨input, rfl⟩ := Option.isSome_iff_exists.mp some?
    exact (fine input rfl).2.2
  · rintro merged now rfl
    obtain ⟨_, same, _⟩ := fine _ rfl
    have here := (eachAfter_concat.mp each).2 merged now rfl
    unfold incarnationEvents at here
    rw [← same] at here
    exact here open'

/-- An input without an entry reports the ticks when it ends the slot. -/
theorem slotStep_reports {cfg : Config} {slotKey : Nat} {slot : PohSlot} {input : SlotInput}
    {ticks : Finset UInt32} {events : List OrderedEvent} (settled : Settled slotKey slot)
    (counted : slot.isSealed = false → Counted slot ticks events)
    (silent : input.arrival? = none) :
    ((slotStep cfg slotKey slot input).1.isSealed = false →
      Counted (slotStep cfg slotKey slot input).1 ticks
        (events ++ sent (slotStep cfg slotKey slot input).2)) ∧
      ReportsTicks ticks (sent (slotStep cfg slotKey slot input).2) := by
  obtain ⟨first, more, move, moves, effects⟩ :=
    (@slotStep_consumed cfg slotKey slot settled.quiet input).split
  have idle : first = (slot, []) := by
    cases move with
    | afterSeal | emit | buffer | refuse | late => cases silent
    | advance | sealing => rfl
  subst idle
  rw [effects, List.nil_append]
  exact moves.counted settled.placed counted

theorem runAll_reports {cfg : Config} {slotKey : Nat} {inputs : List SlotInput} {slot : PohSlot}
    {ticks : Finset UInt32} {events : List OrderedEvent} (settled : Settled slotKey slot)
    (counted : slot.isSealed = false → Counted slot ticks events)
    (belong : ∀ input ∈ inputs, input.BelongsTo slotKey)
    (silent : ∀ input ∈ inputs, input.arrival? = none) :
    ReportsTicks ticks (sent (runAll (slotStep cfg slotKey) slot inputs).2) := by
  induction inputs generalizing slot events with
  | nil => simp [ReportsTicks]
  | cons input rest ih =>
    obtain ⟨counted', reports⟩ :=
      @slotStep_reports cfg slotKey slot input ticks events settled counted (silent input (by simp))
    have settled' := @slotStep_settled cfg _ _ _ settled (belong input (by simp))
    rw [runAll_cons, sent_append]
    exact reportsTicks_append reports (ih settled' counted'
      (fun later member => belong later (List.mem_cons_of_mem _ member))
      fun later member => silent later (List.mem_cons_of_mem _ member))

/-! ## Counting over a run -/

section Runs

variable (cfg : Config) (slotKey : Nat)

/-- The ticks of a slot among the inputs. -/
def receivedTicks (inputs : List Input) : Finset UInt32 :=
  tickIndices (inputs.filterMap (Input.arrivalAt? slotKey))

/-- The buffer of an open slot has room for an arrival above its cursor. -/
def HasRoom (past : List Input) (input : Input) : Prop :=
  ∀ merged, input.arrivalAt? slotKey = some merged →
    (stateFound cfg slotKey past).isSealed = false →
    WithinCapacity cfg (stateFound cfg slotKey past) merged.observation

/-- An arrival does not create the slot anew, and if it finds the slot open it is
counted right. -/
def CountedStep (past : List Input) (input : Input) : Prop :=
  NotRecreating cfg slotKey past input ∧
    ∀ merged, input.arrivalAt? slotKey = some merged →
      (stateFound cfg slotKey past).isSealed = false →
        CountsOnce (stateFound cfg slotKey past) (receivedTicks slotKey past)
          (eventsAt slotKey (run cfg past).2) merged.observation

/-- What is exact about the tick count at one input. -/
structure TicksExact (past : List Input) (input : Input) : Prop where
  /-- A terminal event reports the ticks received, and a complete slot had all. -/
  reported : ReportsTicks (receivedTicks slotKey past)
    (eventsAt slotKey (step cfg (run cfg past).1 input).2)
  /-- A second arrival of an emitted index changes no count. -/
  unchanged : ∀ merged now, input = .receive merged now → merged.observation.slot = slotKey →
    (∃ e, OrderedEvent.entry e ∈ eventsAt slotKey (run cfg past).2 ∧
      e.entryIndex = merged.observation.entryIndex) →
    ((step cfg (run cfg past).1 input).1.slots[slotKey]?.map fun slot => slot.tickIdx) =
      (run cfg past).1.slots[slotKey]?.map fun slot => slot.tickIdx

end Runs

section Exactness

variable {cfg : Config} {slotKey : Nat} {past : List Input}

/-- A slot that was never created anew has its whole past in one incarnation. -/
theorem single_incarnation (never : NeverRecreated cfg slotKey past)
    (held : (run cfg past).1.slots.contains slotKey = true ∨
      past.filterMap (Input.arrivalAt? slotKey) = []) :
    incarnations cfg slotKey past =
        ((history cfg slotKey past).current.toList) ∧
      ticksOf ((history cfg slotKey past).current.getD []) = receivedTicks slotKey past ∧
      incarnationEvents cfg slotKey ((history cfg slotKey past).current.getD []) =
        eventsAt slotKey (run cfg past).2 := by
  have tracked := tracked_run cfg slotKey past
  have few := (length_le_one_iff cfg slotKey past).mpr never
  have arrivals := arrivals_history cfg slotKey past
  rw [ExtTreeMap.contains_eq_isSome_getElem?, tracked.held, Option.isSome_map,
    ← no_incarnations_iff cfg] at held
  rw [tracked.emitted, receivedTicks, ← arrivals]
  unfold incarnations at few held ⊢
  unfold History.arrivals
  cases current : (history cfg slotKey past).current with
  | none =>
    have none : (history cfg slotKey past).incarnations = [] := by simpa [current] using held
    rw [none]
    exact ⟨rfl, rfl, rfl⟩
  | some own =>
    have alone : (history cfg slotKey past).incarnations = [own] := by
      unfold History.incarnations at few ⊢
      rw [current] at few ⊢
      simp only [Option.toList_some, List.length_append, List.length_singleton] at few
      have empty : (history cfg slotKey past).dropped = [] := List.length_eq_zero_iff.mp (by omega)
      simp [empty]
    rw [alone]
    exact ⟨rfl, by simp [ticksOf], by simp⟩

theorem neverRecreated_of_counted (each : EachAfter (CountedStep cfg slotKey) past) :
    NeverRecreated cfg slotKey past :=
  fun before input after split => (each before input after split).1

/-- In a run whose arrivals are counted right, an open slot holds the right
count. -/
theorem run_counted (room : EachAfter (HasRoom cfg slotKey) past)
    (each : EachAfter (CountedStep cfg slotKey) past) {slot : PohSlot}
    (found : (run cfg past).1.slots[slotKey]? = some slot) (opened : slot.isSealed = false) :
    Counted slot (receivedTicks slotKey past) (eventsAt slotKey (run cfg past).2) := by
  have tracked := tracked_run cfg slotKey past
  have present : (run cfg past).1.slots.contains slotKey = true := by
    rw [ExtTreeMap.contains_eq_isSome_getElem?, found]
    rfl
  obtain ⟨_, ticks, events⟩ := single_incarnation (neverRecreated_of_counted each) (.inl present)
  rw [← ticks, ← events]
  have held := tracked.held
  cases current : (history cfg slotKey past).current with
  | none =>
    rw [found, current] at held
    cases held
  | some own =>
    rw [found, current, Option.map_some, Option.some.injEq] at held
    rw [held, Option.getD_some]
    have member : own ∈ incarnations cfg slotKey past := by
      simp [incarnations, History.incarnations, current]
    refine slotRun_counted cfg slotKey own (tracked.proper own member).belong ?_ (held ▸ opened)
    refine incarnations_eachAfter ?_ ?_ own member
    · rintro past _ silent merged now rfl
      cases silent
    · -- An arrival of the run is an arrival of the incarnation it reaches.
      intro before input after split merged now same own
      rintro merged' now' ⟨⟩ open'
      have arrival : input.arrivalAt? slotKey = some merged := by
        simp [same, Input.arrivalAt?, own]
      have earlier : EachAfter (CountedStep cfg slotKey) before := by
        rw [split] at each
        exact each.of_append
      have step := each before input after split
      obtain ⟨_, ticks, events⟩ := single_incarnation (neverRecreated_of_counted earlier)
        (step.1 (by simp [arrival]))
      rw [← stateFound_eq] at open' ⊢
      rw [ticks, events]
      exact ⟨room before input after split merged arrival open',
        step.2 merged arrival open'⟩

theorem reports_of_found {found : Option PohSlot} {slots : ExtTreeMap Nat PohSlot}
    {ticks : Finset UInt32} {events : List OrderedEvent} (settled : AllSettled slots)
    (same : slots[slotKey]? = found)
    (counted : ∀ slot, found = some slot → slot.isSealed = false → Counted slot ticks events)
    {inputs : List SlotInput} (belong : ∀ input ∈ inputs, input.BelongsTo slotKey)
    (silent : ∀ input ∈ inputs, input.arrival? = none) :
    ReportsTicks ticks ((found.map fun slot =>
      sent (runAll (slotStep cfg slotKey) slot inputs).2).getD []) := by
  cases held : found with
  | none => simp [ReportsTicks]
  | some slot =>
    exact runAll_reports (settled slotKey slot (same.trans held)) (counted slot held) belong silent

/-- The inputs of a slot in the last flush, when it survives the sweep. -/
theorem reports_shutdown {ticks : Finset UInt32} {events : List OrderedEvent} {state : State}
    (settled : AllSettled state.slots)
    (counted : ∀ slot, state.slots[slotKey]? = some slot → slot.isSealed = false →
      Counted slot ticks events) (now : Instant) :
    ReportsTicks ticks (eventsAt slotKey (shutdown cfg state now).2) := by
  rw [eventsAt_shutdown cfg state slotKey settled now, eventsAt_sweep cfg state slotKey settled now,
    sweep_getElem?]
  cases held : state.slots[slotKey]? with
  | none => simp [ReportsTicks]
  | some slot =>
    have whole : ReportsTicks ticks (sent (runAll (slotStep cfg slotKey) slot
        (sweepInputs cfg now state.maxSlot slotKey ++ [.sealing now])).2) := by
      refine runAll_reports (settled slotKey slot held) (counted slot held) ?_ ?_
      · intro input member
        rcases List.mem_append.mp member with swept | last
        · exact sweepInputs_belongTo cfg now _ slotKey swept
        · rw [List.mem_singleton.mp last]
          exact belongsTo_sealing slotKey now
      · intro input member
        rcases List.mem_append.mp member with swept | last
        · exact arrival?_of_sweepInputs swept
        · rw [List.mem_singleton.mp last]
          rfl
    rw [runAll_append, sent_append] at whole
    intro event member
    refine whole event ?_
    simp only [Option.map_some, Option.getD_some, List.mem_append] at member ⊢
    rcases member with swept | last
    · exact .inl swept
    · -- A slot that the sweep dropped adds nothing.
      rw [Option.filter_some] at last
      split at last
      · exact .inr (by simpa [runAll_cons] using last)
      · simp at last

/-- **The tick count is exact in every run whose arrivals have room and are counted
right.** At every input, a terminal event of the slot reports `min 64` of the
number of distinct ticks received, a slot is complete only with 64 of them, and a
second arrival of an emitted index leaves the count. -/
theorem ticks_exact (cfg : Config) (slotKey : Nat) (inputs : List Input)
    (room : EachAfter (HasRoom cfg slotKey) inputs)
    (each : EachAfter (CountedStep cfg slotKey) inputs) :
    EachAfter (TicksExact cfg slotKey) inputs := by
  intro past input after split
  have atStep := each past input after split
  rw [split] at room each
  have settled := run_settled cfg past
  have counted := fun slot => @run_counted cfg slotKey past room.of_append each.of_append slot
  constructor
  · cases input with
    | receive merged now =>
      rw [step, eventsAt_receive cfg _ slotKey settled]
      split
      · intro event member terminal
        rw [processSlot_unended cfg _ merged now event member] at terminal
        cases terminal
      · simp [ReportsTicks]
    | sweep now =>
      rw [step, eventsAt_sweep cfg _ slotKey settled]
      exact reports_of_found settled rfl counted
        (fun input => sweepInputs_belongTo cfg now _ slotKey)
        fun input => arrival?_of_sweepInputs
    | shutdown now => exact reports_shutdown settled counted now
  · rintro merged now rfl own ⟨e, emitted, sameIndex⟩
    have arrival : (Input.receive merged now).arrivalAt? slotKey = some merged := by
      simp [Input.arrivalAt?, own]
    have received : past.filterMap (Input.arrivalAt? slotKey) ≠ [] := by
      intro none
      rw [← no_incarnations_iff cfg] at none
      have accounted := (tracked_run cfg slotKey past).emitted
      rw [show (history cfg slotKey past).incarnations = [] from none] at accounted
      rw [accounted] at emitted
      cases emitted
    have present := (atStep.1 (by simp [arrival])).resolve_right received
    rw [ExtTreeMap.contains_eq_isSome_getElem?, Option.isSome_iff_exists] at present
    obtain ⟨slot, found⟩ := present
    rw [step, receive_getElem?, if_pos own, found, Option.getD_some, Option.map_some,
      Option.map_some, Option.some.injEq]
    show (processSlot cfg slot merged now).1.tickIdx = slot.tickIdx
    cases opened : slot.isSealed with
    | true => rw [processSlot_afterSeal opened]
    | false =>
      have once := atStep.2 merged arrival
      rw [stateFound, found, Option.getD_some] at once
      have once := once opened
      have passed := (counted slot found opened).notWrapped once.1
      have late : merged.observation.entryIndex < slot.nextExpectedIdx :=
        sameIndex ▸ passed.2 e emitted
      rw [processSlot_late opened late]
      show countTick slot.tickIdx merged.observation = slot.tickIdx
      cases tick : merged.observation.isTick with
      | false => exact countTick_of_not_tick tick
      | true =>
        by_cases more : slot.tickIdx < ticksPerSlot
        · exact absurd sameIndex ((once.2.1 late tick more).2 e emitted)
        · simp [countTick, more]

open Samples in
/-- The first tick of slot 100 arrives twice. -/
def twiceInputs : List Input :=
  [.receive (merged 100 0 12500 0 1) 1, .receive (merged 100 0 12500 0 1) 2, .shutdown 3]

open Samples in
/-- The duplicate is counted: two ticks are reported where one was received. -/
theorem twiceInputs_not_exact :
    EachAfter (HasRoom (cfgWith 50000000) 100) twiceInputs ∧
      ¬ EachAfter (TicksExact (cfgWith 50000000) 100) twiceInputs := by
  constructor
  · intro past input after split entry arrival _ above
    -- Nothing lies below index 0, so no entry is buffered.
    have member : input ∈ twiceInputs := by simp [split]
    have first : entry.observation.entryIndex = 0 := by
      simp only [twiceInputs, List.mem_cons, List.not_mem_nil, or_false] at member
      rcases member with rfl | rfl | rfl <;> cases arrival <;> rfl
    rw [first] at above
    exact absurd above UInt32.not_lt_zero
  · intro exact'
    have reported := (exact' (twiceInputs.take 2) (.shutdown 3) [] rfl).reported
    have wrong : ∃ event ∈ eventsAt 100 (step (cfgWith 50000000)
        (run (cfgWith 50000000) (twiceInputs.take 2)).1 (.shutdown 3)).2,
        event.isTerminal = true ∧
          event.lastTick? ≠
            some (min ticksPerSlot (receivedTicks 100 (twiceInputs.take 2)).card) := by
      decide +kernel
    obtain ⟨event, member, terminal, different⟩ := wrong
    exact different (reported event member terminal).1

open Samples in
/-- Two ticks in order. -/
def orderedInputs : List Input :=
  [.receive (merged 100 0 12500 0 1) 1, .receive (merged 100 1 12500 0 2) 2, .shutdown 3]

open Samples in
theorem orderedInputs_hasRoom : EachAfter (HasRoom (cfgWith 50000000) 100) orderedInputs := by
  refine (@eachAfter_concat _ _ [_, _] _).mpr ⟨(@eachAfter_concat _ _ [_] _).mpr
    ⟨(@eachAfter_concat _ _ [] _).mpr ⟨eachAfter_nil _, ?_⟩, ?_⟩, ?_⟩
  · rintro entry ⟨⟩ _ above
    exact absurd above (by decide +kernel)
  · rintro entry ⟨⟩ _ above
    exact absurd above (by decide +kernel)
  · rintro entry ⟨⟩

open Samples in
theorem orderedInputs_counted :
    EachAfter (CountedStep (cfgWith 50000000) 100) orderedInputs := by
  refine (@eachAfter_concat _ _ [_, _] _).mpr ⟨(@eachAfter_concat _ _ [_] _).mpr
    ⟨(@eachAfter_concat _ _ [] _).mpr ⟨eachAfter_nil _, ?_⟩, ?_⟩, ?_⟩
  · refine ⟨fun _ => by decide +kernel, ?_⟩
    rintro entry ⟨⟩ _
    exact ⟨by decide +kernel, fun late => absurd late (by decide +kernel),
      fun data => absurd data (by decide +kernel)⟩
  · refine ⟨fun _ => by decide +kernel, ?_⟩
    rintro entry ⟨⟩ _
    exact ⟨by decide +kernel, fun late => absurd late (by decide +kernel),
      fun data => absurd data (by decide +kernel)⟩
  · exact ⟨fun some? => absurd some? (by decide), by rintro entry ⟨⟩⟩

open Samples in
theorem ticks_exact_orderedInputs :
    EachAfter (TicksExact (cfgWith 50000000) 100) orderedInputs :=
  ticks_exact (cfgWith 50000000) 100 orderedInputs orderedInputs_hasRoom orderedInputs_counted

end Exactness

end PohSupervisor

end SenderAnalysis

import SenderAnalysis.FanOut.PohSupervisor.Model

/-!
# What can happen to the state of one slot

Between its creation and its removal the state of a slot takes three kinds of
input: an arrival, phase A of a sweep, and sealing. Each of them is a sequence of
moves (`Move`): the input is consumed by the first move, and the others pop the
buffer, step the cursor over a missing index, or close the slot.

`slotRun_induction` derives a property of every run of a slot from what a single
move does. It also supplies what the loops guarantee: the cursor never passes a
buffered index, so a slot is closed with an empty buffer.
-/

set_option autoImplicit false

namespace SenderAnalysis.PohSupervisor

open Std OrderedMap

/-! ## The fields after an emission -/

section Fields

variable (cfg : Config) (slotKey : Nat) (slot : PohSlot) (merged : MergedEntry) (now : Instant)
  (reordered : Bool) (wait : Nat) (first : UInt32) (entry : PendingEntry)

@[simp] theorem emitEntry_nextExpectedIdx :
    (emitEntry slot merged now reordered wait).1.nextExpectedIdx = slot.nextExpectedIdx := rfl

@[simp] theorem emitEntry_pending :
    (emitEntry slot merged now reordered wait).1.pending = slot.pending := rfl

@[simp] theorem emitEntry_tickIdx :
    (emitEntry slot merged now reordered wait).1.tickIdx =
      countTick slot.tickIdx merged.observation := rfl

@[simp] theorem emitEntry_cumulativeHashes :
    (emitEntry slot merged now reordered wait).1.cumulativeHashes =
      saturatingAdd 64 slot.cumulativeHashes merged.observation.numHashes := rfl

@[simp] theorem emitEntry_lastEntryHash :
    (emitEntry slot merged now reordered wait).1.lastEntryHash =
      some merged.observation.entryHash := rfl

@[simp] theorem emitEntry_lastEntryIndex :
    (emitEntry slot merged now reordered wait).1.lastEntryIndex =
      merged.observation.entryIndex := rfl

@[simp] theorem emitEntry_hasMissing :
    (emitEntry slot merged now reordered wait).1.hasMissing = slot.hasMissing := rfl

@[simp] theorem emitEntry_missingCount :
    (emitEntry slot merged now reordered wait).1.missingCount = slot.missingCount := rfl

@[simp] theorem emitEntry_totalEmitted :
    (emitEntry slot merged now reordered wait).1.totalEmitted =
      saturatingAdd 32 slot.totalEmitted 1 := rfl

@[simp] theorem emitEntry_isSealed :
    (emitEntry slot merged now reordered wait).1.isSealed = slot.isSealed := rfl

/-- The event that carries an emitted entry. -/
def entryEvent (slot : PohSlot) (merged : MergedEntry) (reordered : Bool) (wait : Nat) :
    OrderedEvent :=
  .entry {
    slot := merged.observation.slot
    entryIndex := merged.observation.entryIndex
    tickIdxInSlot := countTick slot.tickIdx merged.observation
    cumulativeHashesInSlot :=
      saturatingAdd 64 slot.cumulativeHashes merged.observation.numHashes
    observation := merged.observation
    wasReordered := reordered
    waitDurationUs := wait
    tickUncertain := slot.hasMissing }

@[simp] theorem sent_emitEntry :
    sent (emitEntry slot merged now reordered wait).2 =
      [entryEvent slot merged reordered wait] := by
  cases reordered <;> rfl

@[simp] theorem emitMissing_nextExpectedIdx :
    (emitMissing cfg slotKey now slot).1.nextExpectedIdx = slot.nextExpectedIdx + 1 := rfl

@[simp] theorem emitMissing_pending :
    (emitMissing cfg slotKey now slot).1.pending = slot.pending := rfl

@[simp] theorem emitMissing_tickIdx :
    (emitMissing cfg slotKey now slot).1.tickIdx = slot.tickIdx := rfl

@[simp] theorem emitMissing_lastEntryHash :
    (emitMissing cfg slotKey now slot).1.lastEntryHash = slot.lastEntryHash := rfl

@[simp] theorem emitMissing_hasMissing :
    (emitMissing cfg slotKey now slot).1.hasMissing = true := rfl

@[simp] theorem emitMissing_missingCount :
    (emitMissing cfg slotKey now slot).1.missingCount = saturatingAdd 32 slot.missingCount 1 := rfl

@[simp] theorem emitMissing_totalEmitted :
    (emitMissing cfg slotKey now slot).1.totalEmitted = slot.totalEmitted := rfl

@[simp] theorem emitMissing_isSealed :
    (emitMissing cfg slotKey now slot).1.isSealed = slot.isSealed := rfl

/-- A missing index is sent with the slot and the cursor. -/
theorem sent_emitMissing :
    ∃ waited, sent (emitMissing cfg slotKey now slot).2 =
      [.missing ⟨slotKey, slot.nextExpectedIdx, waited⟩] :=
  ⟨_, rfl⟩

/-- The wait of a buffered entry, as it is reported. -/
def pendingWait (now : Instant) (entry : PendingEntry) : Nat :=
  waitMicros (saturatingDurationSince now entry.bufferedAt)

@[simp] theorem emitPending_nextExpectedIdx :
    (emitPending now slot first entry).1.nextExpectedIdx = slot.nextExpectedIdx + 1 := rfl

@[simp] theorem emitPending_pending :
    (emitPending now slot first entry).1.pending = slot.pending.erase first := rfl

@[simp] theorem emitPending_tickIdx :
    (emitPending now slot first entry).1.tickIdx =
      countTick slot.tickIdx entry.merged.observation := rfl

@[simp] theorem emitPending_cumulativeHashes :
    (emitPending now slot first entry).1.cumulativeHashes =
      saturatingAdd 64 slot.cumulativeHashes entry.merged.observation.numHashes := rfl

@[simp] theorem emitPending_lastEntryHash :
    (emitPending now slot first entry).1.lastEntryHash =
      some entry.merged.observation.entryHash := rfl

@[simp] theorem emitPending_hasMissing :
    (emitPending now slot first entry).1.hasMissing = slot.hasMissing := rfl

@[simp] theorem emitPending_missingCount :
    (emitPending now slot first entry).1.missingCount = slot.missingCount := rfl

@[simp] theorem emitPending_totalEmitted :
    (emitPending now slot first entry).1.totalEmitted =
      saturatingAdd 32 slot.totalEmitted 1 := rfl

@[simp] theorem emitPending_isSealed :
    (emitPending now slot first entry).1.isSealed = slot.isSealed := rfl

@[simp] theorem sent_emitPending :
    sent (emitPending now slot first entry).2 =
      [entryEvent slot entry.merged true (pendingWait now entry)] := rfl

end Fields

/-! ## Inputs of a slot -/

/-- What the state of a slot takes in. -/
inductive SlotInput where
  | arrive (merged : MergedEntry) (now : Instant)
  | advance (now : Instant)
  | sealing (now : Instant)
deriving DecidableEq, Repr

/-- The entry an input brings. -/
def SlotInput.arrival? : SlotInput → Option MergedEntry
  | .arrive merged _ => some merged
  | .advance _ | .sealing _ => none

/-- One input of a slot. -/
def slotStep (cfg : Config) (slotKey : Nat) (slot : PohSlot) :
    SlotInput → PohSlot × List SupervisorEffect
  | .arrive merged now => processSlot cfg slot merged now
  | .advance now => advanceGaps cfg now slotKey slot
  | .sealing now => sealState cfg now slotKey slot

/-- A run of a slot from its creation. -/
def slotRun (cfg : Config) (slotKey : Nat) (inputs : List SlotInput) :
    PohSlot × List SupervisorEffect :=
  runAll (slotStep cfg slotKey) {} inputs

theorem slotRun_concat (cfg : Config) (slotKey : Nat) (past : List SlotInput)
    (input : SlotInput) :
    slotRun cfg slotKey (past ++ [input]) =
      ((slotStep cfg slotKey (slotRun cfg slotKey past).1 input).1,
        (slotRun cfg slotKey past).2 ++
          (slotStep cfg slotKey (slotRun cfg slotKey past).1 input).2) :=
  runAll_concat _ _ _ _

/-! ## Moves -/

/-- Note the instant of the first arrival. -/
def PohSlot.noted (slot : PohSlot) (now : Instant) : PohSlot :=
  { slot with lastEmitAt := some (slot.lastEmitAt.getD now) }

/-- The effects of closing a slot. -/
def closingEffects (slotKey : Nat) (slot : PohSlot) : List SupervisorEffect :=
  (if slot.hasMissing then [.fetchAdd .slotsWithMissing 1] else []) ++
    ((if slot.tickIdx ≥ ticksPerSlot then [.fetchAdd .slotsComplete 1]
      else [.fetchAdd .slotsIncomplete 1]) ++
      [.trySend (terminalEvent slotKey slot)])

@[simp] theorem sent_closingEffects (slotKey : Nat) (slot : PohSlot) :
    sent (closingEffects slotKey slot) = [terminalEvent slotKey slot] := by
  unfold closingEffects
  split <;> split <;> rfl

/-- An entry that arrives at the cursor is emitted and the cursor moves. -/
def emitAtCursor (slot : PohSlot) (merged : MergedEntry) (now : Instant) :
    PohSlot × List SupervisorEffect :=
  ({ (emitEntry (slot.noted now) merged now false 0).1 with
      nextExpectedIdx := slot.nextExpectedIdx + 1 },
    (emitEntry (slot.noted now) merged now false 0).2)

/-- One move of the state of a slot. The label is the input that the move
consumes, if it consumes one. -/
inductive Move (cfg : Config) (slotKey : Nat) (slot : PohSlot) :
    Option SlotInput → PohSlot × List SupervisorEffect → Prop where
  | afterSeal (merged : MergedEntry) (now : Instant) (closed : slot.isSealed = true) :
      Move cfg slotKey slot (some (.arrive merged now))
        (slot, [.fetchAdd .lateArrivalsAfterSeal 1])
  | emit (merged : MergedEntry) (now : Instant) (opened : slot.isSealed = false)
      (here : merged.observation.entryIndex = slot.nextExpectedIdx) :
      Move cfg slotKey slot (some (.arrive merged now)) (emitAtCursor slot merged now)
  | buffer (merged : MergedEntry) (now : Instant) (opened : slot.isSealed = false)
      (above : slot.nextExpectedIdx < merged.observation.entryIndex)
      (room : slot.pending.size < cfg.maxPendingPerSlot) :
      Move cfg slotKey slot (some (.arrive merged now))
        ({ slot.noted now with
            pending := slot.pending.insert merged.observation.entryIndex ⟨merged, now⟩ },
          [.fetchMax .pendingPeakSize
            (slot.pending.insert merged.observation.entryIndex ⟨merged, now⟩).size])
  | refuse (merged : MergedEntry) (now : Instant) (opened : slot.isSealed = false)
      (above : slot.nextExpectedIdx < merged.observation.entryIndex)
      (full : cfg.maxPendingPerSlot ≤ slot.pending.size) :
      Move cfg slotKey slot (some (.arrive merged now))
        (slot.noted now, [.fetchAdd .pendingDropsCapacity 1])
  | late (merged : MergedEntry) (now : Instant) (opened : slot.isSealed = false)
      (below : merged.observation.entryIndex < slot.nextExpectedIdx) :
      Move cfg slotKey slot (some (.arrive merged now))
        ({ slot.noted now with tickIdx := countTick slot.tickIdx merged.observation },
          [.fetchAdd .duplicatesDropped 1])
  | advance (now : Instant) : Move cfg slotKey slot (some (.advance now)) (slot, [])
  | sealing (now : Instant) : Move cfg slotKey slot (some (.sealing now)) (slot, [])
  | pop (now : Instant) (entry : PendingEntry) (opened : slot.isSealed = false)
      (found : firstEntry slot.pending = some (slot.nextExpectedIdx, entry)) :
      Move cfg slotKey slot none (emitPending now slot slot.nextExpectedIdx entry)
  | skip (now : Instant) (first : UInt32) (entry : PendingEntry) (opened : slot.isSealed = false)
      (found : firstEntry slot.pending = some (first, entry))
      (gap : slot.nextExpectedIdx < first) :
      Move cfg slotKey slot none (emitMissing cfg slotKey now slot)
  | close (now : Instant) (opened : slot.isSealed = false) (emptied : slot.pending = ∅) :
      Move cfg slotKey slot none
        ({ slot with isSealed := true }, closingEffects slotKey slot)

/-- A move that consumes no input is a move of an open slot. -/
theorem Move.opened_of_none {cfg : Config} {slotKey : Nat} {slot : PohSlot}
    {result : PohSlot × List SupervisorEffect} (move : Move cfg slotKey slot none result) :
    slot.isSealed = false := by
  cases move with
  | pop _ _ opened | skip _ _ _ opened | close _ opened => exact opened

/-- No move opens a sealed slot. -/
theorem Move.opened_before {cfg : Config} {slotKey : Nat} {slot : PohSlot}
    {label : Option SlotInput} {result : PohSlot × List SupervisorEffect}
    (move : Move cfg slotKey slot label result) (opened : result.1.isSealed = false) :
    slot.isSealed = false := by
  cases move with
  | afterSeal | advance | sealing => exact opened
  | emit _ _ before | buffer _ _ before | refuse _ _ before | late _ _ before => exact before
  | pop _ _ before | skip _ _ _ before | close _ before => exact before

/-! ## The cursor never passes the buffer -/

/-- No buffered index lies below the cursor. -/
def CursorBelow (slot : PohSlot) : Prop :=
  ∀ idx ∈ slot.pending, slot.nextExpectedIdx ≤ idx

/-- Every buffered index lies above the cursor. -/
def CursorStrictlyBelow (slot : PohSlot) : Prop :=
  ∀ idx ∈ slot.pending, slot.nextExpectedIdx < idx

theorem CursorStrictlyBelow.cursorBelow {slot : PohSlot} (strict : CursorStrictlyBelow slot) :
    CursorBelow slot :=
  fun idx member => UInt32.le_of_lt (strict idx member)

/-- A cursor below an index does not wrap when it is stepped. -/
theorem succ_le_of_lt {next idx : UInt32} (below : next < idx) : next + 1 ≤ idx := by
  rw [UInt32.lt_iff_toNat_lt] at below
  rw [UInt32.le_iff_toNat_le, UInt32.toNat_add]
  have bound := idx.toNat_lt
  have one : (1 : UInt32).toNat = 1 := rfl
  omega

/-- After a step of the cursor an index below it is the old cursor or below that,
unless the cursor wrapped. -/
theorem succ_wraps_or (next : UInt32) :
    next + 1 = 0 ∧ (∀ idx : UInt32, ¬ next < idx) ∨ next < next + 1 := by
  have one : (1 : UInt32).toNat = 1 := rfl
  have bound := next.toNat_lt
  by_cases last : next.toNat = 2 ^ 32 - 1
  · refine .inl ⟨UInt32.toNat_inj.mp ?_, ?_⟩
    · rw [UInt32.toNat_add, one, last]
      rfl
    · intro idx above
      have below := UInt32.lt_iff_toNat_lt.mp above
      have bound' := idx.toNat_lt
      omega
  · refine .inr (UInt32.lt_iff_toNat_lt.mpr ?_)
    rw [UInt32.toNat_add, one]
    omega

theorem lt_of_le_of_ne {next idx : UInt32} (below : next ≤ idx) (different : idx ≠ next) :
    next < idx := by
  rw [UInt32.le_iff_toNat_le] at below
  rw [UInt32.lt_iff_toNat_lt]
  have apart : idx.toNat ≠ next.toNat := fun same => different (UInt32.toNat_inj.mp same)
  omega

/-- The first buffered index is the least one. -/
theorem first_le {pending : ExtTreeMap UInt32 PendingEntry} {first idx : UInt32}
    {entry : PendingEntry} (found : firstEntry pending = some (first, entry))
    (member : idx ∈ pending) : first ≤ idx :=
  (LawfulOrderOrd.isLE_compare first idx).mp (firstEntry_isLE found member)

theorem mem_of_firstEntry {pending : ExtTreeMap UInt32 PendingEntry} {first : UInt32}
    {entry : PendingEntry} (found : firstEntry pending = some (first, entry)) :
    first ∈ pending :=
  ExtTreeMap.mem_iff_isSome_getElem?.mpr (by simp [getElem?_of_firstEntry found])

theorem Move.cursorBelow {cfg : Config} {slotKey : Nat} {slot : PohSlot}
    {label : Option SlotInput} {result : PohSlot × List SupervisorEffect}
    (move : Move cfg slotKey slot label result) (below : CursorBelow slot)
    (quiet : label.isSome → CursorStrictlyBelow slot) : CursorBelow result.1 := by
  cases move with
  | afterSeal | refuse | late | advance | sealing | close => exact below
  | emit merged now opened here =>
    intro idx member
    exact succ_le_of_lt (quiet rfl idx member)
  | buffer merged now opened above room =>
    intro idx member
    rcases ExtTreeMap.mem_insert.mp member with same | old
    · have equal : merged.observation.entryIndex = idx := compare_eq_iff_eq.mp same
      exact equal ▸ UInt32.le_of_lt above
    · exact below idx old
  | pop now entry opened found =>
    intro idx member
    obtain ⟨apart, old⟩ := ExtTreeMap.mem_erase.mp member
    have different : idx ≠ slot.nextExpectedIdx := fun same => apart (by simp [same])
    exact succ_le_of_lt (lt_of_le_of_ne (below idx old) different)
  | skip now first entry opened found gap =>
    intro idx member
    have least : first ≤ idx := first_le found member
    exact succ_le_of_lt (UInt32.lt_of_lt_of_le gap least)

/-! ## The loops end where their bodies break -/

/-- A variant of the loops over the buffer: the size of the buffer, and within it
the distance from the cursor to the first buffered index. -/
def variant (slot : PohSlot) : Nat :=
  match firstEntry slot.pending with
  | some (first, _) => slot.pending.size * 2 ^ 32 + (first - slot.nextExpectedIdx).toNat
  | none => 0

theorem variant_lt_loopBound (slot : PohSlot) : variant slot < loopBound slot := by
  unfold variant loopBound
  split
  · next first _ _ =>
    have bound := (first - slot.nextExpectedIdx).toNat_lt
    omega
  · omega

theorem variant_le (slot : PohSlot) : variant slot < slot.pending.size * 2 ^ 32 + 2 ^ 32 := by
  have bound := variant_lt_loopBound slot
  unfold loopBound at bound
  omega

theorem variant_emitPending {slot : PohSlot} {first : UInt32} {entry : PendingEntry}
    (found : firstEntry slot.pending = some (first, entry)) (now : Instant) :
    variant (emitPending now slot first entry).1 < variant slot := by
  have present : first ∈ slot.pending := mem_of_firstEntry found
  have shrinks : (slot.pending.erase first).size + 1 = slot.pending.size := by
    have positive : slot.pending.size ≠ 0 := by
      intro zero
      rw [ExtTreeMap.eq_empty_iff_size_eq_zero.mpr zero] at present
      exact ExtTreeMap.not_mem_empty present
    rw [ExtTreeMap.size_erase, if_pos (ExtTreeMap.contains_iff_mem.mpr present)]
    omega
  have before : slot.pending.size * 2 ^ 32 ≤ variant slot := by simp [variant, found]
  have after := variant_le (emitPending now slot first entry).1
  rw [emitPending_pending] at after
  omega

theorem sub_succ_lt {first next : UInt32} (different : first ≠ next) :
    (first - (next + 1)).toNat < (first - next).toNat := by
  have apart : first.toNat ≠ next.toNat := fun same => different (UInt32.toNat_inj.mp same)
  have one : (1 : UInt32).toNat = 1 := rfl
  have boundFirst := first.toNat_lt
  have boundNext := next.toNat_lt
  rw [UInt32.toNat_sub, UInt32.toNat_sub, UInt32.toNat_add]
  omega

theorem variant_emitMissing {slot : PohSlot} {first : UInt32} {entry : PendingEntry}
    (found : firstEntry slot.pending = some (first, entry))
    (different : first ≠ slot.nextExpectedIdx) (cfg : Config) (slotKey : Nat) (now : Instant) :
    variant (emitMissing cfg slotKey now slot).1 < variant slot := by
  have closer := sub_succ_lt different
  simp only [variant, emitMissing_pending, emitMissing_nextExpectedIdx, found]
  omega

/-! ## Sequences of moves that consume no input -/

/-- What the moves that consume no input lead to, one after the other. -/
inductive Moves (cfg : Config) (slotKey : Nat) (start : PohSlot) :
    PohSlot → List SupervisorEffect → Prop where
  | done : Moves cfg slotKey start start []
  | snoc {slot : PohSlot} {effects : List SupervisorEffect}
      {result : PohSlot × List SupervisorEffect} (earlier : Moves cfg slotKey start slot effects)
      (below : CursorBelow slot) (move : Move cfg slotKey slot none result) :
      Moves cfg slotKey start result.1 (effects ++ result.2)

/-- An open slot in the middle of a loop over its buffer. -/
structure InLoop (cfg : Config) (slotKey : Nat) (start slot : PohSlot)
    (effects : List SupervisorEffect) : Prop where
  opened : slot.isSealed = false
  below : CursorBelow slot
  moves : Moves cfg slotKey start slot effects

theorem InLoop.start {cfg : Config} {slotKey : Nat} {slot : PohSlot}
    (opened : slot.isSealed = false) (below : CursorBelow slot) :
    InLoop cfg slotKey slot slot [] :=
  ⟨opened, below, .done⟩

theorem InLoop.pop {cfg : Config} {slotKey : Nat} {start slot : PohSlot}
    {effects : List SupervisorEffect} (loop : InLoop cfg slotKey start slot effects)
    {entry : PendingEntry}
    (found : firstEntry slot.pending = some (slot.nextExpectedIdx, entry)) (now : Instant) :
    InLoop cfg slotKey start (emitPending now slot slot.nextExpectedIdx entry).1
      (effects ++ (emitPending now slot slot.nextExpectedIdx entry).2) := by
  have move : Move cfg slotKey slot none (emitPending now slot slot.nextExpectedIdx entry) :=
    .pop now entry loop.opened found
  exact ⟨loop.opened, move.cursorBelow loop.below (by simp), loop.moves.snoc loop.below move⟩

theorem InLoop.skip {cfg : Config} {slotKey : Nat} {start slot : PohSlot}
    {effects : List SupervisorEffect} (loop : InLoop cfg slotKey start slot effects)
    {first : UInt32} {entry : PendingEntry}
    (found : firstEntry slot.pending = some (first, entry))
    (different : first ≠ slot.nextExpectedIdx) (now : Instant) :
    InLoop cfg slotKey start (emitMissing cfg slotKey now slot).1
      (effects ++ (emitMissing cfg slotKey now slot).2) := by
  have gap : slot.nextExpectedIdx < first :=
    lt_of_le_of_ne (loop.below first (mem_of_firstEntry found)) different
  have move : Move cfg slotKey slot none (emitMissing cfg slotKey now slot) :=
    .skip now first entry loop.opened found gap
  exact ⟨loop.opened, move.cursorBelow loop.below (by simp), loop.moves.snoc loop.below move⟩

/-! ## What one iteration of a loop does -/

theorem drainBody_eq_some {now : Instant} {slot : PohSlot}
    {result : PohSlot × List SupervisorEffect} (iteration : drainBody now slot = some result) :
    ∃ entry, firstEntry slot.pending = some (slot.nextExpectedIdx, entry) ∧
      result = emitPending now slot slot.nextExpectedIdx entry := by
  unfold drainBody at iteration
  split at iteration
  · next first entry found =>
    by_cases here : first = slot.nextExpectedIdx
    · subst here
      exact ⟨entry, found, by simpa using iteration.symm⟩
    · simp [here] at iteration
  · simp at iteration

theorem gapBody_eq_some {cfg : Config} {slotKey : Nat} {now : Instant} {slot : PohSlot}
    {result : PohSlot × List SupervisorEffect}
    (iteration : gapBody cfg slotKey now slot = some result) :
    (∃ entry, firstEntry slot.pending = some (slot.nextExpectedIdx, entry) ∧
      result = emitPending now slot slot.nextExpectedIdx entry) ∨
    (∃ first entry, firstEntry slot.pending = some (first, entry) ∧
      first ≠ slot.nextExpectedIdx ∧ result = emitMissing cfg slotKey now slot) := by
  unfold gapBody at iteration
  split at iteration
  · next first entry found =>
    by_cases here : first = slot.nextExpectedIdx
    · subst here
      exact .inl ⟨entry, found, by simpa using iteration.symm⟩
    · rw [if_neg here] at iteration
      split at iteration
      · exact .inr ⟨first, entry, found, here, by simpa using iteration.symm⟩
      · simp at iteration
  · simp at iteration

theorem flushBody_eq_some {cfg : Config} {slotKey : Nat} {now : Instant} {maxIdx : UInt32}
    {slot : PohSlot} {result : PohSlot × List SupervisorEffect}
    (iteration : flushBody cfg slotKey now maxIdx slot = some result) :
    (∃ entry, firstEntry slot.pending = some (slot.nextExpectedIdx, entry) ∧
      result = emitPending now slot slot.nextExpectedIdx entry) ∨
    (∃ first entry, firstEntry slot.pending = some (first, entry) ∧
      first ≠ slot.nextExpectedIdx ∧ result = emitMissing cfg slotKey now slot) := by
  unfold flushBody at iteration
  split at iteration
  · split at iteration
    · next first entry found =>
      by_cases here : first = slot.nextExpectedIdx
      · subst here
        exact .inl ⟨entry, found, by simpa using iteration.symm⟩
      · rw [if_neg here] at iteration
        exact .inr ⟨first, entry, found, here, by simpa using iteration.symm⟩
    · simp at iteration
  · simp at iteration

/-- Where a drain stops, nothing is buffered at the cursor. -/
theorem absent_of_drainBody {now : Instant} {slot : PohSlot} (ended : drainBody now slot = none)
    (entry : PendingEntry) : firstEntry slot.pending ≠ some (slot.nextExpectedIdx, entry) := by
  intro found
  simp [drainBody, found] at ended

/-- Where phase A of a sweep stops, nothing is buffered at the cursor. -/
theorem absent_of_gapBody {cfg : Config} {slotKey : Nat} {now : Instant} {slot : PohSlot}
    (ended : gapBody cfg slotKey now slot = none) (entry : PendingEntry) :
    firstEntry slot.pending ≠ some (slot.nextExpectedIdx, entry) := by
  intro found
  simp [gapBody, found] at ended

/-- Where a flush stops, the buffer is empty or lies above the last index. -/
theorem lt_of_flushBody {cfg : Config} {slotKey : Nat} {now : Instant} {maxIdx first : UInt32}
    {slot : PohSlot} {entry : PendingEntry} (ended : flushBody cfg slotKey now maxIdx slot = none)
    (found : firstEntry slot.pending = some (first, entry)) :
    ¬ slot.nextExpectedIdx ≤ maxIdx := by
  intro within
  by_cases here : first = slot.nextExpectedIdx
  · simp [flushBody, found, within, here] at ended
  · simp [flushBody, found, within, here] at ended

/-! ## What the loops do -/

section Loops

variable {cfg : Config} {slotKey : Nat} {slot : PohSlot}

theorem drain_inLoop (opened : slot.isSealed = false) (below : CursorBelow slot)
    (now : Instant) :
    InLoop cfg slotKey slot (drainConsecutivePending slot now).1
      (drainConsecutivePending slot now).2 := by
  refine @runWhile_induction _ _ (drainBody now) (InLoop cfg slotKey slot) ?_ slot
    (InLoop.start opened below) (loopBound slot)
  intro state outputs next more loop iteration
  obtain ⟨entry, found, same⟩ := drainBody_eq_some iteration
  rw [Prod.mk.injEq] at same
  rw [same.1, same.2]
  exact loop.pop found now

theorem variant_of_pop_or_skip {state : PohSlot} {now : Instant}
    {result : PohSlot × List SupervisorEffect}
    (iteration : (∃ entry, firstEntry state.pending = some (state.nextExpectedIdx, entry) ∧
        result = emitPending now state state.nextExpectedIdx entry) ∨
      (∃ first entry, firstEntry state.pending = some (first, entry) ∧
        first ≠ state.nextExpectedIdx ∧ result = emitMissing cfg slotKey now state)) :
    variant result.1 < variant state := by
  rcases iteration with ⟨entry, found, rfl⟩ | ⟨first, entry, found, different, rfl⟩
  · exact variant_emitPending found now
  · exact variant_emitMissing found different cfg slotKey now

theorem InLoop.pop_or_skip {start state : PohSlot} {effects : List SupervisorEffect}
    (loop : InLoop cfg slotKey start state effects) {now : Instant}
    {result : PohSlot × List SupervisorEffect}
    (iteration : (∃ entry, firstEntry state.pending = some (state.nextExpectedIdx, entry) ∧
        result = emitPending now state state.nextExpectedIdx entry) ∨
      (∃ first entry, firstEntry state.pending = some (first, entry) ∧
        first ≠ state.nextExpectedIdx ∧ result = emitMissing cfg slotKey now state)) :
    InLoop cfg slotKey start result.1 (effects ++ result.2) := by
  rcases iteration with ⟨entry, found, rfl⟩ | ⟨first, entry, found, different, rfl⟩
  · exact loop.pop found now
  · exact loop.skip found different now

/-- Where nothing is buffered at the cursor, the cursor is strictly below the
buffer. -/
theorem CursorBelow.strict {state : PohSlot} (below : CursorBelow state)
    (absent : ∀ entry, firstEntry state.pending ≠ some (state.nextExpectedIdx, entry)) :
    CursorStrictlyBelow state := by
  intro idx member
  refine lt_of_le_of_ne (below idx member) ?_
  intro here
  subst here
  obtain ⟨entry, found⟩ := Option.isSome_iff_exists.mp
    (ExtTreeMap.mem_iff_isSome_getElem?.mp member)
  refine absent entry (firstEntry_eq_some_iff.mpr ⟨found, ?_⟩)
  intro other present
  exact (LawfulOrderOrd.isLE_compare _ other).mpr (below other present)

theorem drainBody_exit (slot : PohSlot) (now : Instant) :
    drainBody now (drainConsecutivePending slot now).1 = none := by
  unfold drainConsecutivePending
  refine runWhile_exit variant ?_ (Nat.le_of_lt (variant_lt_loopBound slot))
  intro state next more iteration
  obtain ⟨entry, found, same⟩ := drainBody_eq_some iteration
  rw [Prod.mk.injEq] at same
  rw [same.1]
  exact variant_emitPending found now

/-- The drain ends with the cursor strictly below the buffer. -/
theorem drain_quiet {now : Instant} (below : CursorBelow (drainConsecutivePending slot now).1) :
    CursorStrictlyBelow (drainConsecutivePending slot now).1 :=
  below.strict (absent_of_drainBody (drainBody_exit slot now))

/-- The sweep of an open slot is the loop over its gaps. -/
theorem advanceGaps_opened (opened : slot.isSealed = false) (now : Instant) :
    advanceGaps cfg now slotKey slot =
      runWhile (gapBody cfg slotKey now) (loopBound slot) slot := by
  simp [advanceGaps, opened]

theorem gaps_inLoop (opened : slot.isSealed = false) (below : CursorBelow slot)
    (now : Instant) :
    InLoop cfg slotKey slot (advanceGaps cfg now slotKey slot).1
      (advanceGaps cfg now slotKey slot).2 := by
  rw [advanceGaps_opened opened]
  refine @runWhile_induction _ _ (gapBody cfg slotKey now) (InLoop cfg slotKey slot) ?_ slot
    (InLoop.start opened below) (loopBound slot)
  intro state outputs next more loop iteration
  exact loop.pop_or_skip (gapBody_eq_some iteration)

theorem gapBody_exit (opened : slot.isSealed = false) (now : Instant) :
    gapBody cfg slotKey now (advanceGaps cfg now slotKey slot).1 = none := by
  rw [advanceGaps_opened opened]
  refine runWhile_exit variant ?_ (Nat.le_of_lt (variant_lt_loopBound slot))
  intro state next more iteration
  exact variant_of_pop_or_skip (gapBody_eq_some iteration)

/-- The sweep of an open slot ends with the cursor strictly below the buffer. -/
theorem gaps_quiet (opened : slot.isSealed = false) (below : CursorBelow slot) (now : Instant) :
    CursorStrictlyBelow (advanceGaps cfg now slotKey slot).1 := by
  have loop : InLoop cfg slotKey slot (advanceGaps cfg now slotKey slot).1 _ :=
    gaps_inLoop opened below now
  exact loop.below.strict (absent_of_gapBody (gapBody_exit opened now))

/-- The flush of a nonempty buffer is the loop up to its last index. -/
theorem flushPending_of_lastKey {maxIdx : UInt32} (found : lastKey slot.pending = some maxIdx)
    (now : Instant) :
    flushPending cfg slotKey now slot =
      runWhile (flushBody cfg slotKey now maxIdx) (loopBound slot) slot := by
  simp only [flushPending, found]

theorem flushPending_of_empty (emptied : slot.pending = ∅) (now : Instant) :
    flushPending cfg slotKey now slot = (slot, []) := by
  simp only [flushPending, lastKey_eq_none_iff.mpr emptied]

theorem flush_inLoop (opened : slot.isSealed = false) (below : CursorBelow slot)
    (now : Instant) :
    InLoop cfg slotKey slot (flushPending cfg slotKey now slot).1
      (flushPending cfg slotKey now slot).2 := by
  cases found : lastKey slot.pending with
  | none =>
    rw [flushPending_of_empty (lastKey_eq_none_iff.mp found)]
    exact InLoop.start opened below
  | some maxIdx =>
    rw [flushPending_of_lastKey found]
    refine @runWhile_induction _ _ (flushBody cfg slotKey now maxIdx) (InLoop cfg slotKey slot) ?_
      slot (InLoop.start opened below) (loopBound slot)
    intro state outputs next more loop iteration
    exact loop.pop_or_skip (flushBody_eq_some iteration)

/-- No iteration adds to the buffer. -/
theorem pending_subset_of_pop_or_skip {state : PohSlot} {now : Instant}
    {result : PohSlot × List SupervisorEffect}
    (iteration : (∃ entry, firstEntry state.pending = some (state.nextExpectedIdx, entry) ∧
        result = emitPending now state state.nextExpectedIdx entry) ∨
      (∃ first entry, firstEntry state.pending = some (first, entry) ∧
        first ≠ state.nextExpectedIdx ∧ result = emitMissing cfg slotKey now state))
    {idx : UInt32} (member : idx ∈ result.1.pending) : idx ∈ state.pending := by
  rcases iteration with ⟨entry, found, rfl⟩ | ⟨first, entry, found, different, rfl⟩
  · exact (ExtTreeMap.mem_erase.mp member).2
  · exact member

/-- **The flush of an open slot empties its buffer.** -/
theorem flush_empties (opened : slot.isSealed = false) (below : CursorBelow slot)
    (now : Instant) : (flushPending cfg slotKey now slot).1.pending = ∅ := by
  have loop : InLoop cfg slotKey slot (flushPending cfg slotKey now slot).1 _ :=
    flush_inLoop opened below now
  cases found : lastKey slot.pending with
  | none =>
    have emptied := lastKey_eq_none_iff.mp found
    rw [flushPending_of_empty emptied]
    exact emptied
  | some maxIdx =>
    rw [flushPending_of_lastKey found] at loop ⊢
    have bounded : ∀ idx ∈ (runWhile (flushBody cfg slotKey now maxIdx) (loopBound slot)
        slot).1.pending, idx ≤ maxIdx := by
      refine @runWhile_invariant _ _ (flushBody cfg slotKey now maxIdx)
        (fun state => ∀ idx ∈ state.pending, idx ≤ maxIdx) ?_ slot ?_ (loopBound slot)
      · intro state next more holds iteration idx member
        exact holds idx (pending_subset_of_pop_or_skip (flushBody_eq_some iteration) member)
      · intro idx member
        exact (LawfulOrderOrd.isLE_compare idx maxIdx).mp (isLE_lastKey found member)
    have ended : flushBody cfg slotKey now maxIdx
        (runWhile (flushBody cfg slotKey now maxIdx) (loopBound slot) slot).1 = none := by
      refine runWhile_exit variant ?_ (Nat.le_of_lt (variant_lt_loopBound slot))
      intro state next more iteration
      exact variant_of_pop_or_skip (flushBody_eq_some iteration)
    by_contra nonempty
    obtain ⟨first, entry, least⟩ := firstEntry_of_ne_empty nonempty
    have member := mem_of_firstEntry least
    have within := UInt32.le_trans (loop.below first member) (bounded first member)
    exact lt_of_flushBody ended least within

end Loops

end SenderAnalysis.PohSupervisor

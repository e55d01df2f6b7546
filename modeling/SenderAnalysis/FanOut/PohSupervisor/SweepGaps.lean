import SenderAnalysis.FanOut.PohSupervisor.SlotView
import SenderAnalysis.FanOut.Samples

/-!
# Which entries a sweep leaves waiting

Phase A of a sweep looks at the first buffered entry of a slot only. It opens the gap
in front of it when that entry has waited long enough, emits the stretch behind the
gap, and stops at the first stretch that begins with an entry that has not. So what
is left begins with such an entry, and everything above that entry is left with it,
however long it has waited.

Entries need not be buffered in the order of their indices, so the first entry of the
buffer need not be the oldest. After a sweep no entry of an open slot is overdue
exactly when no overdue entry was masked by a younger one below it
(`nothingOverdue_advanceGaps`, `gapsInTime_iff`).
-/

set_option autoImplicit false

namespace SenderAnalysis.PohSupervisor

open Std (ExtTreeMap)
open OrderedMap

/-! ## Entries that hold the cursor back -/

/-- A buffered entry of an open slot that stands behind a gap has not waited long
enough. -/
def HoldsBack (cfg : Config) (now : Instant) (slot : PohSlot) : Prop :=
  slot.isSealed = false ∧ ∃ idx entry, slot.pending[idx]? = some entry ∧
    idx - 1 ∉ slot.pending ∧ saturatingDurationSince now entry.bufferedAt < cfg.entryTimeout

instance (cfg : Config) (now : Instant) (slot : PohSlot) : Decidable (HoldsBack cfg now slot) :=
  decidable_of_iff
    (slot.isSealed = false ∧ ∃ entry ∈ slot.pending.toList,
      entry.1 - 1 ∉ slot.pending ∧
        saturatingDurationSince now entry.2.bufferedAt < cfg.entryTimeout)
    (and_congr_right' (@exists_getElem?_iff _ _ _ _ _ slot.pending (fun idx entry =>
      idx - 1 ∉ slot.pending ∧
        saturatingDurationSince now entry.bufferedAt < cfg.entryTimeout)).symm)

/-- A buffered entry that has waited long enough stands above one behind a gap that has
not. -/
def MasksOverdue (cfg : Config) (now : Instant) (slot : PohSlot) : Prop :=
  ∃ (low idx : UInt32) (young overdue : PendingEntry),
    slot.pending[low]? = some young ∧ low - 1 ∉ slot.pending ∧
    saturatingDurationSince now young.bufferedAt < cfg.entryTimeout ∧ low < idx ∧
    slot.pending[idx]? = some overdue ∧
    cfg.entryTimeout ≤ saturatingDurationSince now overdue.bufferedAt

/-- Every buffered entry has waited less than the timeout. -/
def NothingOverdue (cfg : Config) (now : Instant) (slot : PohSlot) : Prop :=
  ∀ (idx : UInt32) (entry : PendingEntry), slot.pending[idx]? = some entry →
    saturatingDurationSince now entry.bufferedAt < cfg.entryTimeout

section OneSlot

variable {cfg : Config} {slotKey : Nat} {start slot : PohSlot} {now : Instant}

/-! ## What phase A leaves -/

/-- What is buffered after some moves was buffered before. -/
theorem Moves.pending_subset {effects : List SupervisorEffect}
    (moves : Moves cfg slotKey start slot effects) {idx : UInt32} {entry : PendingEntry}
    (present : slot.pending[idx]? = some entry) : start.pending[idx]? = some entry := by
  induction moves with
  | done => exact present
  | snoc earlier below move ih =>
    cases move with
    | pop now popped opened found =>
      rw [emitPending_pending, ExtTreeMap.getElem?_erase] at present
      split at present
      · cases present
      · exact ih present
    | skip | close => exact ih present

/-- What is not buffered any more lies below the cursor, unless the cursor wrapped and
nothing is buffered. -/
theorem Moves.passed {effects : List SupervisorEffect}
    (moves : Moves cfg slotKey start slot effects) {idx : UInt32} (member : idx ∈ start.pending) :
    idx ∈ slot.pending ∨ idx < slot.nextExpectedIdx ∨ slot.pending = ∅ := by
  induction moves with
  | done => exact .inl member
  | @snoc before _ _ earlier below move ih =>
    cases move with
    | close => exact ih
    | pop now popped opened found =>
      rw [emitPending_pending, emitPending_nextExpectedIdx]
      rcases succ_wraps_or before.nextExpectedIdx with ⟨_, last⟩ | up
      · -- the cursor wraps, so the popped entry was the last one
        refine .inr (.inr (ExtTreeMap.eq_empty_iff_forall_not_mem.mpr fun other listed => ?_))
        obtain ⟨apart, old⟩ := ExtTreeMap.mem_erase.mp listed
        refine last other (lt_of_le_of_ne (below other old) fun same => apart ?_)
        simp [same]
      · rcases ih with waiting | passed | emptied
        · by_cases here : idx = before.nextExpectedIdx
          · exact .inr (.inl (here ▸ up))
          · refine .inl (ExtTreeMap.mem_erase.mpr ⟨fun same => here ?_, waiting⟩)
            exact (Std.LawfulEqOrd.eq_of_compare same).symm
        · exact .inr (.inl (UInt32.lt_trans passed up))
        · exact absurd (mem_of_firstEntry found) (by simp [emptied])
    | skip now first entry opened found gap =>
      rw [emitMissing_pending, emitMissing_nextExpectedIdx]
      refine ih.imp_right (Or.imp_left fun passed => ?_)
      rcases succ_wraps_or before.nextExpectedIdx with ⟨_, last⟩ | up
      · exact absurd gap (last first)
      · exact UInt32.lt_trans passed up

/-- Phase A of a sweep stops at an entry behind a gap that has not waited long
enough. -/
theorem gaps_stop (opened : slot.isSealed = false) {first : UInt32} {entry : PendingEntry}
    (found : firstEntry (advanceGaps cfg now slotKey slot).1.pending = some (first, entry)) :
    saturatingDurationSince now entry.bufferedAt < cfg.entryTimeout := by
  have ended := @gapBody_exit cfg slotKey slot opened now
  rw [gapBody, found] at ended
  simp only at ended
  split at ended
  · cases ended
  · split at ended
    · cases ended
    · next waits => exact Nat.lt_of_not_le waits

theorem advanceGaps_isSealed (settled : Settled slotKey slot) :
    (advanceGaps cfg now slotKey slot).1.isSealed = slot.isSealed := by
  cases sealing : slot.isSealed with
  | true => rw [advanceGaps_closed sealing, sealing]
  | false => exact (gaps_inLoop sealing settled.quiet.cursorBelow now).opened

/-- An entry behind a gap that has not waited long enough stays in the buffer, and the
cursor stays below it. -/
theorem stays_of_early (settled : Settled slotKey slot) (opened : slot.isSealed = false)
    {idx : UInt32} {entry : PendingEntry} (present : slot.pending[idx]? = some entry)
    (apart : idx - 1 ∉ slot.pending)
    (early : saturatingDurationSince now entry.bufferedAt < cfg.entryTimeout) :
    (advanceGaps cfg now slotKey slot).1.pending[idx]? = some entry ∧
      (advanceGaps cfg now slotKey slot).1.nextExpectedIdx < idx := by
  have member : idx ∈ slot.pending := ExtTreeMap.mem_iff_isSome_getElem?.mpr (by simp [present])
  have stays : InLoop cfg slotKey slot (advanceGaps cfg now slotKey slot).1
        (advanceGaps cfg now slotKey slot).2 ∧
      (advanceGaps cfg now slotKey slot).1.pending[idx]? = some entry ∧
      (advanceGaps cfg now slotKey slot).1.nextExpectedIdx < idx ∧
      idx - 1 ∉ (advanceGaps cfg now slotKey slot).1.pending := by
    rw [advanceGaps_opened opened]
    refine @runWhile_induction _ _ (gapBody cfg slotKey now)
      (fun state effects => InLoop cfg slotKey slot state effects ∧
        state.pending[idx]? = some entry ∧ state.nextExpectedIdx < idx ∧
        idx - 1 ∉ state.pending) ?_ slot
      ⟨InLoop.start opened settled.quiet.cursorBelow, present, settled.quiet idx member, apart⟩
      (loopBound slot)
    rintro state effects next more ⟨loop, present', below, apart'⟩ iteration
    refine ⟨loop.pop_or_skip (gapBody_eq_some iteration), ?_⟩
    have member' : idx ∈ state.pending :=
      ExtTreeMap.mem_iff_isSome_getElem?.mpr (by simp [present'])
    unfold gapBody at iteration
    split at iteration
    · next first other found =>
      split at iteration
      · next here =>
        -- the cursor is not stepped onto the entry, whose predecessor is not buffered
        subst here
        obtain rfl : (emitPending now state state.nextExpectedIdx other).1 = next :=
          congrArg Prod.fst (Option.some.inj iteration)
        have different : state.nextExpectedIdx ≠ idx :=
          fun same => UInt32.lt_irrefl _ (same ▸ below)
        refine ⟨?_, lt_of_le_of_ne (succ_le_of_lt below) fun same => apart' ?_, fun old => ?_⟩
        · rw [emitPending_pending, ExtTreeMap.getElem?_erase, if_neg ?_]
          · exact present'
          · exact fun same => different (Std.LawfulEqOrd.eq_of_compare same)
        · have previous : idx - 1 = state.nextExpectedIdx := by
            rw [same, emitPending_nextExpectedIdx, UInt32.add_sub_cancel]
          exact previous ▸ mem_of_firstEntry found
        · exact apart' (ExtTreeMap.mem_erase.mp old).2
      · split at iteration
        · next different late =>
          -- only a gap in front of another entry is opened
          obtain rfl : (emitMissing cfg slotKey now state).1 = next :=
            congrArg Prod.fst (Option.some.inj iteration)
          have above : state.nextExpectedIdx < first :=
            lt_of_le_of_ne (loop.below first (mem_of_firstEntry found)) different
          have before : first < idx := by
            refine lt_of_le_of_ne (first_le found member') fun same => ?_
            have same' := getElem?_of_firstEntry found
            rw [← same, present'] at same'
            cases same'
            exact Nat.not_lt.mpr late early
          exact ⟨present', UInt32.lt_of_le_of_lt (succ_le_of_lt above) before, apart'⟩
        · cases iteration
    · cases iteration
  exact ⟨stays.2.1, stays.2.2.1⟩

/-- What phase A leaves begins with an entry that was behind a gap. -/
theorem first_left (opened : slot.isSealed = false) (settled : Settled slotKey slot)
    {first : UInt32} {entry : PendingEntry}
    (found : firstEntry (advanceGaps cfg now slotKey slot).1.pending = some (first, entry)) :
    slot.pending[first]? = some entry ∧ first - 1 ∉ slot.pending := by
  have loop : InLoop cfg slotKey slot (advanceGaps cfg now slotKey slot).1 _ :=
    gaps_inLoop opened settled.quiet.cursorBelow now
  refine ⟨loop.moves.pending_subset (getElem?_of_firstEntry found), ?_⟩
  -- a buffered predecessor would have been popped, and the cursor would be at the entry
  intro previous
  have above := @gaps_quiet cfg slotKey slot opened settled.quiet.cursorBelow now
    first (mem_of_firstEntry found)
  have step : (first - 1).toNat + 1 = first.toNat := by
    have here := UInt32.lt_iff_toNat_lt.mp above
    have one : (1 : UInt32).toNat = 1 := rfl
    have bound := first.toNat_lt
    rw [UInt32.toNat_sub]
    omega
  rcases loop.moves.passed previous with waiting | passed | emptied
  · have order := UInt32.le_iff_toNat_le.mp (first_le found waiting)
    omega
  · have order := UInt32.lt_iff_toNat_lt.mp passed
    have order' := UInt32.lt_iff_toNat_lt.mp above
    omega
  · simp [firstEntry_eq_none_iff.mpr emptied] at found

theorem held_of_holdsBack (settled : Settled slotKey slot) (holds : HoldsBack cfg now slot) :
    (advanceGaps cfg now slotKey slot).1.pending ≠ ∅ := by
  obtain ⟨opened, idx, entry, present, apart, early⟩ := holds
  intro emptied
  have left := (stays_of_early settled opened present apart early).1
  rw [emptied] at left
  simp at left

/-- **Phase A leaves nothing overdue exactly when nothing overdue was masked.** -/
theorem nothingOverdue_advanceGaps (settled : Settled slotKey slot)
    (opened : slot.isSealed = false) :
    NothingOverdue cfg now (advanceGaps cfg now slotKey slot).1 ↔ ¬ MasksOverdue cfg now slot := by
  have loop : InLoop cfg slotKey slot (advanceGaps cfg now slotKey slot).1 _ :=
    gaps_inLoop opened settled.quiet.cursorBelow now
  constructor
  · rintro timely ⟨low, idx, young, overdue, present, apart, early, below, present', late⟩
    obtain ⟨stays, cursor⟩ := stays_of_early settled opened present apart early
    have member : idx ∈ slot.pending := ExtTreeMap.mem_iff_isSome_getElem?.mpr (by simp [present'])
    rcases loop.moves.passed member with waiting | passed | emptied
    · obtain ⟨entry, left⟩ := Option.isSome_iff_exists.mp
        (ExtTreeMap.mem_iff_isSome_getElem?.mp waiting)
      have same := loop.moves.pending_subset left
      rw [present', Option.some.injEq] at same
      subst same
      exact Nat.not_lt.mpr late (timely idx _ left)
    · exact UInt32.lt_irrefl _ (UInt32.lt_trans (UInt32.lt_trans passed cursor) below)
    · rw [emptied] at stays
      simp at stays
  · intro unmasked idx entry left
    by_contra late
    have nonempty : (advanceGaps cfg now slotKey slot).1.pending ≠ ∅ := by
      intro emptied
      rw [emptied] at left
      simp at left
    obtain ⟨first, young, found⟩ := firstEntry_of_ne_empty nonempty
    obtain ⟨present, apart⟩ := first_left opened settled found
    have early := gaps_stop opened found
    have member : idx ∈ (advanceGaps cfg now slotKey slot).1.pending :=
      ExtTreeMap.mem_iff_isSome_getElem?.mpr (by simp [left])
    refine unmasked ⟨first, idx, young, entry, present, apart, early, ?_,
      loop.moves.pending_subset left, Nat.le_of_not_lt late⟩
    refine lt_of_le_of_ne (first_le found member) fun same => ?_
    subst same
    rw [getElem?_of_firstEntry found, Option.some.injEq] at left
    subst left
    exact late early

end OneSlot

/-! ## All slots -/

/-- No entry of an open slot has waited for the timeout or longer. -/
def GapsInTime (cfg : Config) (now : Instant) (state : State) : Prop :=
  ∀ (slotKey : Nat) (slot : PohSlot), state.slots[slotKey]? = some slot →
    slot.isSealed = false → NothingOverdue cfg now slot

/-- A slot that a sweep leaves open was open before and not due, and went through phase A
only. -/
theorem sweep_open_iff (cfg : Config) {state : State} (settled : AllSettled state.slots)
    (now : Instant) (slotKey : Nat) (slot : PohSlot) :
    ((sweep cfg state now).1.slots[slotKey]? = some slot ∧ slot.isSealed = false) ↔
      ∃ before, state.slots[slotKey]? = some before ∧ before.isSealed = false ∧
        due cfg state.maxSlot slotKey = false ∧ (advanceGaps cfg now slotKey before).1 = slot := by
  rw [sweep_getElem?, Option.filter_eq_some_iff, Option.map_eq_some_iff]
  constructor
  · rintro ⟨⟨⟨before, found, rfl⟩, _⟩, opened⟩
    cases isDue : due cfg state.maxSlot slotKey with
    | true =>
      simp only [sweepInputs, isDue, if_true, runAll_cons, runAll_nil, slotStep] at opened
      rw [sealState_isSealed] at opened
      cases opened
    | false =>
      simp only [sweepInputs, isDue, Bool.false_eq_true, if_false, runAll_cons, runAll_nil,
        slotStep] at opened ⊢
      rw [advanceGaps_isSealed (settled slotKey before found)] at opened
      exact ⟨before, found, opened, trivial, rfl⟩
  · rintro ⟨before, found, opened, notDue, rfl⟩
    have stillOpen : (advanceGaps cfg now slotKey before).1.isSealed = false := by
      rw [advanceGaps_isSealed (settled slotKey before found), opened]
    have inputs : sweepInputs cfg now state.maxSlot slotKey = [.advance now] := by
      simp [sweepInputs, notDue]
    refine ⟨⟨⟨before, found, ?_⟩, ?_⟩, stillOpen⟩
    · rw [inputs]
      rfl
    · simp [kept, stillOpen]

/-- **A sweep leaves no entry of an open slot overdue exactly when, in every open slot
that is not due, no overdue entry stands above a younger one behind a gap.** -/
theorem gapsInTime_iff (cfg : Config) (inputs : List Input) (now : Instant) :
    GapsInTime cfg now (sweep cfg (run cfg inputs).1 now).1 ↔
      ∀ (slotKey : Nat) (slot : PohSlot), (run cfg inputs).1.slots[slotKey]? = some slot →
        slot.isSealed = false → due cfg (run cfg inputs).1.maxSlot slotKey = false →
          ¬ MasksOverdue cfg now slot := by
  have settled := run_settled cfg inputs
  constructor
  · intro timely slotKey slot found opened notDue
    obtain ⟨swept, stillOpen⟩ := (sweep_open_iff cfg settled now slotKey _).mpr
      ⟨slot, found, opened, notDue, rfl⟩
    exact (nothingOverdue_advanceGaps (settled slotKey slot found) opened).mp
      (timely slotKey _ swept stillOpen)
  · intro unmasked slotKey slot swept stillOpen
    obtain ⟨before, found, opened, notDue, rfl⟩ :=
      (sweep_open_iff cfg settled now slotKey slot).mp ⟨swept, stillOpen⟩
    exact (nothingOverdue_advanceGaps (settled slotKey before found) opened).mpr
      (unmasked slotKey before found opened notDue)

/-- An entry buffered at 0 ms is left waiting at 60 ms, with a timeout of 50 ms, because an
entry with a lower index was buffered at 40 ms. -/
theorem maskedEntry_overdue :
    ¬ GapsInTime (Samples.cfgWith 50) 60
      (sweep (Samples.cfgWith 50) (run (Samples.cfgWith 50)
        [.receive (Samples.merged 100 5 10 0 1) 0, .receive (Samples.merged 100 3 10 0 2) 40]).1
        60).1 := by
  have left : ((sweep (Samples.cfgWith 50) (run (Samples.cfgWith 50)
      [.receive (Samples.merged 100 5 10 0 1) 0, .receive (Samples.merged 100 3 10 0 2) 40]).1
      60).1.slots[100]?.map fun slot =>
        (slot.isSealed, slot.pending[(5 : UInt32)]?.map PendingEntry.bufferedAt)) =
      some (false, some 0) := by
    decide +kernel
  obtain ⟨slot, found, facts⟩ := Option.map_eq_some_iff.mp left
  obtain ⟨opened, buffered⟩ := Prod.mk.inj facts
  obtain ⟨entry, present, since⟩ := Option.map_eq_some_iff.mp buffered
  intro timely
  have waited := timely 100 slot found opened 5 entry present
  rw [since] at waited
  exact absurd waited (by decide)

end SenderAnalysis.PohSupervisor

import SenderAnalysis.FanOut.PohSupervisor.SlotMoves

/-!
# Runs of one slot

An input of a slot is one move that consumes it, followed by moves that consume
none (`slotStep_consumed`). Between two inputs the cursor lies strictly below the
buffer (`slotRun_quiet`), and the seal leaves the buffer empty.

`slotRun_induction` is the rule the results about a slot are proved with: a
relation between the inputs so far, the state and the effects so far holds after
every run when it holds at the creation of the slot and every move preserves it.
-/

set_option autoImplicit false

namespace SenderAnalysis.PohSupervisor

open Std OrderedMap

variable {cfg : Config} {slotKey : Nat} {slot : PohSlot}

/-! ## The branches of an arrival -/

section Branches

variable {merged : MergedEntry} {now : Instant}

theorem processSlot_afterSeal (closed : slot.isSealed = true) :
    processSlot cfg slot merged now = (slot, [.fetchAdd .lateArrivalsAfterSeal 1]) := by
  simp only [processSlot, closed, if_true]

/-- An arrival at an open slot, by the place of its index. -/
theorem processSlot_opened (opened : slot.isSealed = false) :
    processSlot cfg slot merged now =
      if merged.observation.entryIndex = slot.nextExpectedIdx then
        ((drainConsecutivePending (emitAtCursor slot merged now).1 now).1,
          (emitAtCursor slot merged now).2 ++
            (drainConsecutivePending (emitAtCursor slot merged now).1 now).2)
      else if slot.nextExpectedIdx < merged.observation.entryIndex then
        if cfg.maxPendingPerSlot ≤ slot.pending.size then
          (slot.noted now, [.fetchAdd .pendingDropsCapacity 1])
        else
          ({ slot.noted now with
              pending := slot.pending.insert merged.observation.entryIndex ⟨merged, now⟩ },
            [.fetchMax .pendingPeakSize
              (slot.pending.insert merged.observation.entryIndex ⟨merged, now⟩).size])
      else
        ({ slot.noted now with tickIdx := countTick slot.tickIdx merged.observation },
          [.fetchAdd .duplicatesDropped 1]) := by
  have notSealed : ¬ slot.isSealed = true := by simp [opened]
  rw [processSlot, if_neg notSealed]
  rfl

theorem processSlot_emit (opened : slot.isSealed = false)
    (here : merged.observation.entryIndex = slot.nextExpectedIdx) :
    processSlot cfg slot merged now =
      ((drainConsecutivePending (emitAtCursor slot merged now).1 now).1,
        (emitAtCursor slot merged now).2 ++
          (drainConsecutivePending (emitAtCursor slot merged now).1 now).2) := by
  rw [processSlot_opened opened, if_pos here]

theorem processSlot_buffer (opened : slot.isSealed = false)
    (above : slot.nextExpectedIdx < merged.observation.entryIndex)
    (room : slot.pending.size < cfg.maxPendingPerSlot) :
    processSlot cfg slot merged now =
      ({ slot.noted now with
          pending := slot.pending.insert merged.observation.entryIndex ⟨merged, now⟩ },
        [.fetchMax .pendingPeakSize
          (slot.pending.insert merged.observation.entryIndex ⟨merged, now⟩).size]) := by
  have different : merged.observation.entryIndex ≠ slot.nextExpectedIdx :=
    fun same => UInt32.lt_irrefl _ (same ▸ above)
  rw [processSlot_opened opened, if_neg different, if_pos above, if_neg (Nat.not_le.mpr room)]

theorem processSlot_refuse (opened : slot.isSealed = false)
    (above : slot.nextExpectedIdx < merged.observation.entryIndex)
    (full : cfg.maxPendingPerSlot ≤ slot.pending.size) :
    processSlot cfg slot merged now =
      (slot.noted now, [.fetchAdd .pendingDropsCapacity 1]) := by
  have different : merged.observation.entryIndex ≠ slot.nextExpectedIdx :=
    fun same => UInt32.lt_irrefl _ (same ▸ above)
  rw [processSlot_opened opened, if_neg different, if_pos above, if_pos full]

theorem processSlot_late (opened : slot.isSealed = false)
    (below : merged.observation.entryIndex < slot.nextExpectedIdx) :
    processSlot cfg slot merged now =
      ({ slot.noted now with tickIdx := countTick slot.tickIdx merged.observation },
        [.fetchAdd .duplicatesDropped 1]) := by
  have different : merged.observation.entryIndex ≠ slot.nextExpectedIdx :=
    fun same => UInt32.lt_irrefl _ (same ▸ below)
  have notAbove : ¬ slot.nextExpectedIdx < merged.observation.entryIndex :=
    fun above => UInt32.lt_irrefl _ (UInt32.lt_trans above below)
  rw [processSlot_opened opened, if_neg different, if_neg notAbove]

end Branches

/-- The drain ends no slot. -/
theorem drain_unended (slot : PohSlot) (now : Instant) :
    ∀ event ∈ sent (drainConsecutivePending slot now).2, event.isTerminal = false := by
  refine @runWhile_induction _ _ (drainBody now)
    (fun _ effects => ∀ event ∈ sent effects, event.isTerminal = false) ?_ slot (by simp)
    (loopBound slot)
  intro state outputs next more holds iteration event member
  obtain ⟨entry, _, same⟩ := drainBody_eq_some iteration
  rw [Prod.mk.injEq] at same
  rw [same.2, sent_append, sent_emitPending] at member
  rcases List.mem_append.mp member with old | new
  · exact holds event old
  · rw [List.mem_singleton.mp new]
    rfl

/-- An arrival ends no slot. -/
theorem processSlot_unended (cfg : Config) (slot : PohSlot) (merged : MergedEntry)
    (now : Instant) :
    ∀ event ∈ sent (processSlot cfg slot merged now).2, event.isTerminal = false := by
  cases sealing : slot.isSealed with
  | true =>
    rw [processSlot_afterSeal sealing]
    simp
  | false =>
    rw [processSlot_opened sealing]
    split
    · intro event member
      rw [sent_append] at member
      rcases List.mem_append.mp member with first | later
      · have same : event = entryEvent (slot.noted now) merged false 0 := by
          simpa [emitAtCursor] using first
        rw [same]
        rfl
      · exact drain_unended _ now event later
    · split
      · split <;> simp
      · simp

/-- An open slot is sealed by a flush and the closing of the slot. -/
theorem sealState_opened (opened : slot.isSealed = false) (now : Instant) :
    sealState cfg now slotKey slot =
      ({ (flushPending cfg slotKey now slot).1 with isSealed := true },
        (flushPending cfg slotKey now slot).2 ++
          closingEffects slotKey (flushPending cfg slotKey now slot).1) := by
  have notSealed : ¬ slot.isSealed = true := by simp [opened]
  rw [sealState, if_neg notSealed]
  rfl

theorem sealState_closed (closed : slot.isSealed = true) (now : Instant) :
    sealState cfg now slotKey slot = (slot, []) := by
  simp only [sealState, closed, if_true]

theorem sealState_isSealed (now : Instant) :
    (sealState cfg now slotKey slot).1.isSealed = true := by
  cases sealing : slot.isSealed with
  | true => rw [sealState_closed sealing, sealing]
  | false => rw [sealState_opened sealing]

theorem advanceGaps_closed (closed : slot.isSealed = true) (now : Instant) :
    advanceGaps cfg now slotKey slot = (slot, []) := by
  simp only [advanceGaps, closed, if_true]

/-! ## An input is a sequence of moves -/

/-- What an input leads to: a move that consumes it and moves that consume none. -/
structure Consumed (cfg : Config) (slotKey : Nat) (slot : PohSlot) (input : SlotInput)
    (result : PohSlot × List SupervisorEffect) : Prop where
  split : ∃ first more, Move cfg slotKey slot (some input) first ∧
    Moves cfg slotKey first.1 result.1 more ∧ result.2 = first.2 ++ more
  quiet : CursorStrictlyBelow result.1

/-- A single move that keeps the cursor strictly below the buffer. -/
theorem Consumed.single {input : SlotInput} {result : PohSlot × List SupervisorEffect}
    (move : Move cfg slotKey slot (some input) result) (quiet : CursorStrictlyBelow result.1) :
    Consumed cfg slotKey slot input result :=
  ⟨⟨result, [], move, .done, by simp⟩, quiet⟩

theorem Consumed.of_moves {input : SlotInput} {first : PohSlot × List SupervisorEffect}
    {last : PohSlot} {more : List SupervisorEffect}
    (move : Move cfg slotKey slot (some input) first) (moves : Moves cfg slotKey first.1 last more)
    (quiet : CursorStrictlyBelow last) :
    Consumed cfg slotKey slot input (last, first.2 ++ more) :=
  ⟨⟨first, more, move, moves, rfl⟩, quiet⟩

/-- An input that is consumed without a change of the state. -/
theorem Consumed.of_idle {input : SlotInput} {last : PohSlot} {more : List SupervisorEffect}
    (move : Move cfg slotKey slot (some input) (slot, []))
    (moves : Moves cfg slotKey slot last more) (quiet : CursorStrictlyBelow last) :
    Consumed cfg slotKey slot input (last, more) :=
  ⟨⟨(slot, []), more, move, moves, (List.nil_append more).symm⟩, quiet⟩

theorem index_trichotomy (first second : UInt32) :
    first < second ∨ first = second ∨ second < first := by
  rcases Nat.lt_trichotomy first.toNat second.toNat with below | here | above
  · exact .inl (UInt32.lt_iff_toNat_lt.mpr below)
  · exact .inr (.inl (UInt32.toNat_inj.mp here))
  · exact .inr (.inr (UInt32.lt_iff_toNat_lt.mpr above))

/-- An arrival leaves the cursor strictly below the buffer. -/
theorem arrive_consumed (quiet : CursorStrictlyBelow slot) (merged : MergedEntry) (now : Instant) :
    Consumed cfg slotKey slot (.arrive merged now) (processSlot cfg slot merged now) := by
  cases sealing : slot.isSealed with
  | true =>
    rw [processSlot_afterSeal sealing]
    exact .single (.afterSeal merged now sealing) quiet
  | false =>
    rcases index_trichotomy merged.observation.entryIndex slot.nextExpectedIdx with
      below | here | above
    · rw [processSlot_late sealing below]
      exact .single (.late merged now sealing below) quiet
    · rw [processSlot_emit sealing here]
      have move : Move cfg slotKey slot (some (.arrive merged now))
          (emitAtCursor slot merged now) :=
        .emit merged now sealing here
      have below := move.cursorBelow quiet.cursorBelow fun _ => quiet
      have opened : (emitAtCursor slot merged now).1.isSealed = false := sealing
      have loop : InLoop cfg slotKey (emitAtCursor slot merged now).1
          (drainConsecutivePending (emitAtCursor slot merged now).1 now).1
          (drainConsecutivePending (emitAtCursor slot merged now).1 now).2 :=
        drain_inLoop opened below now
      have drained := drain_quiet loop.below
      exact .of_moves move loop.moves drained
    · by_cases full : cfg.maxPendingPerSlot ≤ slot.pending.size
      · rw [processSlot_refuse sealing above full]
        exact .single (.refuse merged now sealing above full) quiet
      · have room := Nat.not_le.mp full
        rw [processSlot_buffer sealing above room]
        refine .single (.buffer merged now sealing above room) ?_
        intro idx member
        rcases ExtTreeMap.mem_insert.mp member with same | old
        · have equal : merged.observation.entryIndex = idx := compare_eq_iff_eq.mp same
          exact equal ▸ above
        · exact quiet idx old

theorem advance_consumed (quiet : CursorStrictlyBelow slot) (now : Instant) :
    Consumed cfg slotKey slot (.advance now) (advanceGaps cfg now slotKey slot) := by
  cases sealing : slot.isSealed with
  | true =>
    rw [advanceGaps_closed sealing]
    exact .single (.advance now) quiet
  | false =>
    have loop : InLoop cfg slotKey slot _ _ := gaps_inLoop sealing quiet.cursorBelow now
    exact .of_idle (.advance now) loop.moves (gaps_quiet sealing quiet.cursorBelow now)

theorem sealing_consumed (quiet : CursorStrictlyBelow slot) (now : Instant) :
    Consumed cfg slotKey slot (.sealing now) (sealState cfg now slotKey slot) := by
  cases sealing : slot.isSealed with
  | true =>
    rw [sealState_closed sealing]
    exact .single (.sealing now) quiet
  | false =>
    have loop : InLoop cfg slotKey slot _ _ := flush_inLoop sealing quiet.cursorBelow now
    have emptied : (flushPending cfg slotKey now slot).1.pending = ∅ :=
      flush_empties sealing quiet.cursorBelow now
    rw [sealState_opened sealing]
    generalize flushPending cfg slotKey now slot = flushed at loop emptied ⊢
    have move : Move cfg slotKey flushed.1 none
        ({ flushed.1 with isSealed := true }, closingEffects slotKey flushed.1) :=
      .close now loop.opened emptied
    have moves := loop.moves.snoc loop.below move
    refine .of_idle (.sealing now) moves ?_
    intro idx member
    exact absurd (emptied ▸ member) ExtTreeMap.not_mem_empty

/-- **Every input of a slot is a sequence of moves, the first of which consumes
it, and leaves the cursor strictly below the buffer.** -/
theorem slotStep_consumed (quiet : CursorStrictlyBelow slot) (input : SlotInput) :
    Consumed cfg slotKey slot input (slotStep cfg slotKey slot input) := by
  cases input with
  | arrive merged now => exact arrive_consumed quiet merged now
  | advance now => exact advance_consumed quiet now
  | sealing now => exact sealing_consumed quiet now

/-! ## Runs -/

theorem initial_quiet : CursorStrictlyBelow {} :=
  fun _ member => absurd member ExtTreeMap.not_mem_empty

/-- **Between two inputs the cursor lies strictly below the buffer.** -/
theorem slotRun_quiet (cfg : Config) (slotKey : Nat) (inputs : List SlotInput) :
    CursorStrictlyBelow (slotRun cfg slotKey inputs).1 :=
  @runAll_invariant _ _ _ (slotStep cfg slotKey) CursorStrictlyBelow
    (fun _ input quiet => (slotStep_consumed quiet input).quiet) _ initial_quiet inputs

/-- **A relation between the inputs so far, the state of a slot and the effects so
far holds after every run when every move preserves it.** A move that consumes an
input finds the slot as the earlier inputs left it. -/
theorem slotRun_induction {cfg : Config} {slotKey : Nat}
    {motive : List SlotInput → PohSlot → List SupervisorEffect → Prop}
    (created : motive [] {} [])
    (preserved : ∀ past slot effects label result, motive past slot effects →
      CursorBelow slot →
      (label.isSome → (slot, effects) = slotRun cfg slotKey past ∧ CursorStrictlyBelow slot) →
      Move cfg slotKey slot label result →
      motive (past ++ label.toList) result.1 (effects ++ result.2))
    (inputs : List SlotInput) :
    motive inputs (slotRun cfg slotKey inputs).1 (slotRun cfg slotKey inputs).2 := by
  induction inputs using List.reverseRecOn with
  | nil => exact created
  | append_singleton past input ih =>
    have quiet := slotRun_quiet cfg slotKey past
    obtain ⟨first, more, move, moves, effects⟩ :=
      (@slotStep_consumed cfg slotKey _ quiet input).split
    have begun := preserved past _ _ (some input) first ih quiet.cursorBelow
      (fun _ => ⟨rfl, quiet⟩) move
    rw [slotRun_concat, effects, ← List.append_assoc]
    clear effects
    generalize (slotStep cfg slotKey (slotRun cfg slotKey past).1 input).1 = last at moves
    induction moves with
    | done => simpa using begun
    | snoc earlier below move ih =>
      have continued := preserved _ _ _ none _ ih below (by simp) move
      simpa [List.append_assoc] using continued

/-! ## Sealed slots -/

/-- A sealed slot buffers nothing. -/
def SealedEmpty (slot : PohSlot) : Prop := slot.isSealed = true → slot.pending = ∅

theorem Move.sealedEmpty {label : Option SlotInput} {result : PohSlot × List SupervisorEffect}
    (move : Move cfg slotKey slot label result) (holds : SealedEmpty slot) :
    SealedEmpty result.1 := by
  intro closed
  cases move with
  | afterSeal | advance | sealing => exact holds closed
  | emit _ _ opened | buffer _ _ opened | refuse _ _ opened | late _ _ opened =>
    exact absurd (opened.symm.trans closed) (by simp)
  | pop _ _ opened | skip _ _ _ opened => exact absurd (opened.symm.trans closed) (by simp)
  | close _ _ emptied => exact emptied

theorem Moves.sealedEmpty {start : PohSlot} {effects : List SupervisorEffect}
    (moves : Moves cfg slotKey start slot effects) (holds : SealedEmpty start) :
    SealedEmpty slot := by
  induction moves with
  | done => exact holds
  | snoc _ _ move ih => exact move.sealedEmpty ih

theorem slotStep_sealedEmpty (quiet : CursorStrictlyBelow slot) (holds : SealedEmpty slot)
    (input : SlotInput) : SealedEmpty (slotStep cfg slotKey slot input).1 := by
  obtain ⟨first, more, move, moves, effects⟩ :=
    (@slotStep_consumed cfg slotKey slot quiet input).split
  exact moves.sealedEmpty (move.sealedEmpty holds)

/-- **A sealed slot buffers nothing, in every run.** -/
theorem slotRun_emptied (cfg : Config) (slotKey : Nat) (own : List SlotInput) :
    SealedEmpty (slotRun cfg slotKey own).1 :=
  @slotRun_induction cfg slotKey (fun _ slot _ => SealedEmpty slot) (fun _ => rfl)
    (fun _ _ _ _ _ holds _ _ move => move.sealedEmpty holds) own

end SenderAnalysis.PohSupervisor

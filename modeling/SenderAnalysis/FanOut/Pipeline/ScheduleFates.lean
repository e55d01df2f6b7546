import SenderAnalysis.FanOut.Pipeline.ScheduleAccounts
import SenderAnalysis.FanOut.Samples
import SenderAnalysis.FanOut.TriggerEngine.Firing

/-!
# Every scheduled trigger has one fate

The pump offers the entries of the schedule's chunks in order (`pumped_run`). These are
distinct, so every entry that was offered has exactly one fate, and transactions never
replace others in the pool (`one_fate`).

The engine only sees stored schedules, and what is stored was offered before. So a trigger
it fires is accounted for when it is dispatched, however much later that is: its
transactions are in the pool, unless its entry was refused by the channel, still waits in
it, was late, is still held by the preparer, was dropped from the pool, or was dispatched
before (`fired_accounted`).
-/

set_option autoImplicit false

namespace SenderAnalysis.ScheduleFlow

/-! ## What the pump offers -/

/-- The entry of an offer. -/
def Event.offer? : Event → Option ScheduleEntry
  | .queued entry | .refused entry => some entry
  | _ => none

/-- The entries that were offered, in order. -/
def offers (events : List Event) : List ScheduleEntry := events.filterMap Event.offer?

@[simp] theorem offers_append (first second : List Event) :
    offers (first ++ second) = offers first ++ offers second := List.filterMap_append

theorem times_offered (key : Nat × Nat) (events : List Event) :
    times Event.offered? key events = ((offers events).map ScheduleEntry.key).count key := by
  have same : events.filterMap Event.offered? = (offers events).map ScheduleEntry.key := by
    rw [offers, List.map_filterMap]
    refine List.filterMap_congr fun event _ => ?_
    cases event <;> rfl
  rw [times, same]

/-- How many chunks the pump may have generated. -/
def chunkCalls (inputs : List Input) : Nat :=
  inputs.countP fun input => match input with
    | .nextChunk => true
    | _ => false

theorem chunkCalls_concat_of_ne (past : List Input) {input : Input} (other : input ≠ .nextChunk) :
    chunkCalls (past ++ [input]) = chunkCalls past := by
  cases input with
  | nextChunk => exact absurd rfl other
  | _ => simp [chunkCalls]

/-- What is not an offer is silent. -/
theorem offers_map {α : Type} (values : List α) {event : α → Event}
    (silent : ∀ value, (event value).offer? = none) : offers (values.map event) = [] := by
  rw [offers, List.filterMap_map]
  change List.filterMap (fun value => (event value).offer?) values = []
  simp [silent]

/-- The inputs of the pump. -/
def Input.ofPump : Input → Bool
  | .nextChunk | .offer _ | .store => true
  | _ => false

/-- A step leaves the pump where it is. -/
structure PumpFrame (state : State) (result : State × List Event) : Prop where
  schedule : result.1.schedule = state.schedule
  chunk : result.1.chunk = state.chunk
  accumulated : result.1.accumulated = state.accumulated
  snapshot : result.1.snapshot = state.snapshot
  silent : offers result.2 = []

theorem PumpFrame.refl (state : State) : PumpFrame state (state, []) := ⟨rfl, rfl, rfl, rfl, rfl⟩

theorem pumpFrame_fetch (state : State) (currentSlot : Nat) (now : Instant) :
    PumpFrame state (fetch state currentSlot now) := by
  unfold fetch
  split
  · exact .refl state
  · dsimp only
    split
    · exact ⟨rfl, rfl, rfl, rfl, offers_map _ fun _ => rfl⟩
    · next preparer entry _ =>
      unfold acquire
      dsimp only
      split <;> exact ⟨rfl, rfl, rfl, rfl, offers_map _ fun _ => rfl⟩

/-- The other threads leave the pump where it is. -/
theorem pumpFrame_step (state : State) {input : Input} (other : input.ofPump = false) :
    PumpFrame state (step state input) := by
  cases input with
  | nextChunk | offer | store => cases other
  | refresh | manage => exact ⟨rfl, rfl, rfl, rfl, rfl⟩
  | fetch currentSlot now => exact pumpFrame_fetch state currentSlot now
  | insert signed =>
    change PumpFrame state (insert state signed)
    unfold insert
    split
    · exact .refl state
    · refine ⟨rfl, rfl, rfl, rfl, ?_⟩
      split <;> rfl
  | startSweep currentSlot now =>
    change PumpFrame state (startSweep state currentSlot now)
    unfold startSweep
    split <;> exact ⟨rfl, rfl, rfl, rfl, rfl⟩
  | dropBelow =>
    change PumpFrame state (dropBelow state)
    unfold dropBelow
    split
    · exact ⟨rfl, rfl, rfl, rfl, offers_map _ fun _ => rfl⟩
    · exact .refl state
    · exact .refl state
  | finishSweep =>
    change PumpFrame state (finishSweep state)
    unfold finishSweep
    split
    · refine ⟨rfl, rfl, rfl, rfl, ?_⟩
      split <;> rfl
    · exact .refl state
    · exact .refl state
  | dispatch trig =>
    change PumpFrame state (dispatch state trig)
    unfold dispatch
    split
    · exact ⟨rfl, rfl, rfl, rfl, rfl⟩
    · refine ⟨rfl, rfl, rfl, rfl, ?_⟩
      split <;> rfl

/-- What the pump has offered and what is left of its chunk are the chunks of the
schedule. -/
def Pumped (schedule : Schedule) (bound : Nat) (state : State) (events : List Event) : Prop :=
  ∃ calls ≤ bound, schedule.chunks calls = some (state.schedule, offers events ++ state.chunk)

theorem Pumped.offer {schedule : Schedule} {bound : Nat} {state : State} {events : List Event}
    (pumped : Pumped schedule bound state events) (accepted : Bool) :
    Pumped schedule bound (offer state accepted).1 (events ++ (offer state accepted).2) := by
  unfold ScheduleFlow.offer
  split
  · rwa [List.append_nil]
  · next entry chunk waits =>
    obtain ⟨calls, few, ends⟩ := pumped
    rw [waits] at ends
    refine ⟨calls, few, ?_⟩
    cases accepted <;> simpa [offers, Event.offer?] using ends

theorem Pumped.nextChunk {schedule : Schedule} {bound : Nat} {state : State} {events : List Event}
    (pumped : Pumped schedule bound state events) :
    Pumped schedule (bound + 1) (nextChunk state).1 (events ++ (nextChunk state).2) := by
  obtain ⟨calls, few, ends⟩ := pumped
  unfold ScheduleFlow.nextChunk
  split
  · next next chunk empty generated =>
    rw [empty, List.append_nil] at ends
    refine ⟨calls + 1, Nat.succ_le_succ few, ?_⟩
    rw [List.append_nil]
    exact Schedule.chunks_concat ends generated
  · exact ⟨calls, Nat.le_succ_of_le few, by rwa [List.append_nil]⟩

/-- **The pump offers the entries of the schedule's chunks in order.** -/
theorem pumped_run (schedule : Schedule) (manager : Option NonceManager) (startedAt : Instant)
    (inputs : List Input) :
    Pumped schedule (chunkCalls inputs) (run schedule manager startedAt inputs).1
      (run schedule manager startedAt inputs).2 := by
  induction inputs using List.reverseRecOn with
  | nil => exact ⟨0, Nat.le_refl _, rfl⟩
  | append_singleton past input ih =>
    rw [run, runAll_concat]
    change Pumped schedule _ (step (run schedule manager startedAt past).1 input).1
      ((run schedule manager startedAt past).2 ++
        (step (run schedule manager startedAt past).1 input).2)
    cases pump : input.ofPump with
    | false =>
      have frame := pumpFrame_step (run schedule manager startedAt past).1 pump
      have same : chunkCalls (past ++ [input]) = chunkCalls past := by
        refine chunkCalls_concat_of_ne past ?_
        rintro rfl
        cases pump
      obtain ⟨calls, few, ends⟩ := ih
      refine ⟨calls, same ▸ few, ?_⟩
      rw [offers_append, frame.silent, List.append_nil, frame.schedule, frame.chunk, ends]
    | true =>
      cases input with
      | nextChunk =>
        have counted : chunkCalls (past ++ [.nextChunk]) = chunkCalls past + 1 := by
          simp [chunkCalls]
        rw [counted]
        exact ih.nextChunk
      | offer accepted =>
        rw [chunkCalls_concat_of_ne past (by simp)]
        exact ih.offer accepted
      | store =>
        rw [chunkCalls_concat_of_ne past (by simp)]
        change Pumped schedule _ (store _).1 (_ ++ (store _).2)
        unfold store
        split <;> rwa [List.append_nil]
      | fetch | insert | startSweep | dropBelow | finishSweep | dispatch | refresh | manage =>
        cases pump

/-! ## One fate for every entry -/

theorem key_injective {first second : ScheduleEntry} (same : first.key = second.key) :
    first = second := by
  obtain ⟨slot, tick⟩ := first
  obtain ⟨slot', tick'⟩ := second
  cases same
  rfl

/-- A schedule whose draws are ticks, and whose chunks do not reach the last slot there
is. -/
structure Fits (rng : List Nat) (startSlot chunkSize : Nat) (inputs : List Input) : Prop where
  ticks : ∀ tick ∈ rng, 1 ≤ tick ∧ tick ≤ 64
  slots : startSlot + chunkCalls inputs * max chunkSize 1 ≤ 2 ^ 64

section Fates

variable {rng : List Nat} {startSlot chunkSize triggersPerSlot : Nat}
  {manager : Option NonceManager} {startedAt : Instant} {inputs : List Input}

/-- No entry is offered twice. -/
theorem offered_once (fits : Fits rng startSlot chunkSize inputs) (key : Nat × Nat) :
    times Event.offered? key (run (Schedule.new rng startSlot chunkSize triggersPerSlot) manager
      startedAt inputs).2 ≤ 1 := by
  obtain ⟨calls, few, ends⟩ := pumped_run (Schedule.new rng startSlot chunkSize triggersPerSlot)
    manager startedAt inputs
  have room : startSlot + calls * max chunkSize 1 ≤ 2 ^ 64 := by
    have less := Nat.mul_le_mul_right (max chunkSize 1) few
    have most := fits.slots
    omega
  have pos : 0 < max chunkSize 1 := Nat.le_max_right chunkSize 1
  obtain ⟨slots, _, filled⟩ := @Schedule.chunks_covers calls
    (Schedule.new rng startSlot chunkSize triggersPerSlot) _ _ fits.ticks room pos ends
  have distinct : (offers (run (Schedule.new rng startSlot chunkSize triggersPerSlot) manager
      startedAt inputs).2).Nodup :=
    (filled ▸ SlotTicks.entriesFrom_nodup _).of_append_left
  rw [times_offered]
  exact List.nodup_iff_count_le_one.mp (distinct.map fun _ _ same => key_injective same) key

/-- As long as an entry is offered once at most, its transactions replace none. -/
theorem never_replaced (schedule : Schedule) (key : Nat × Nat)
    (once : times Event.offered? key (run schedule manager startedAt inputs).2 ≤ 1) :
    times Event.replaced? key (run schedule manager startedAt inputs).2 = 0 := by
  induction inputs using List.reverseRecOn with
  | nil => rfl
  | append_singleton past input ih =>
    have account := account_run schedule manager startedAt past key
    have moves := moves_step key (run schedule manager startedAt past).1 input
    rw [run, runAll_concat, times_append] at once ⊢
    change times Event.offered? key (run schedule manager startedAt past).2 +
      times Event.offered? key (step (run schedule manager startedAt past).1 input).2 ≤ 1 at once
    change times Event.replaced? key (run schedule manager startedAt past).2 +
      times Event.replaced? key (step (run schedule manager startedAt past).1 input).2 = 0
    have before := ih (by omega)
    rcases moves.replaced with none | ⟨inHand, present⟩
    · omega
    · -- what is signed for and what is in the pool were offered separately
      have fates := account.fates
      omega

/-- **Every scheduled entry has one fate.** An entry of the schedule is offered once at
most; the one that was offered was refused, waits in the channel, was late, is held by the
preparer, was dropped from the pool, was dispatched, or is in the pool. -/
theorem one_fate (fits : Fits rng startSlot chunkSize inputs) (key : Nat × Nat) :
    let final := run (Schedule.new rng startSlot chunkSize triggersPerSlot) manager startedAt inputs
    times Event.offered? key final.2 ≤ 1 ∧ times Event.replaced? key final.2 = 0 ∧
      times Event.offered? key final.2 =
        times Event.refused? key final.2 + waiting key final.1 +
          times Event.pastSlot? key final.2 + holding key final.1 +
          times Event.dropped? key final.2 + times Event.hit? key final.2 +
          pooled key final.1 := by
  have once :=
    @offered_once rng startSlot chunkSize triggersPerSlot manager startedAt inputs fits key
  have kept := never_replaced _ key once
  have fates := (account_run (Schedule.new rng startSlot chunkSize triggersPerSlot) manager
    startedAt inputs key).fates
  exact ⟨once, kept, by omega⟩

end Fates

/-- One chunk of one slot with one tick, up to the stored schedule. -/
def offeredInputs : List Input := [.nextChunk, .offer true, .store]

/-- The entry is signed for with the cached blockhash and dispatched. -/
def dispatchedInputs : List Input :=
  [.refresh (Samples.hash 1), .fetch 0 1, .insert [(0, Samples.signature 1)],
    .dispatch ⟨.fromSlotTick 100 7, 100, 7, 2, false⟩]

theorem fits_dispatched : Fits [7] 100 1 (offeredInputs ++ dispatchedInputs) :=
  ⟨by decide, by decide⟩

theorem one_fate_dispatched :
    times Event.offered? (100, 7) (run (Schedule.new [7] 100 1 1) none 0
        (offeredInputs ++ dispatchedInputs)).2 = 1 ∧
      times Event.hit? (100, 7) (run (Schedule.new [7] 100 1 1) none 0
        (offeredInputs ++ dispatchedInputs)).2 = 1 ∧
      times Event.replaced? (100, 7) (run (Schedule.new [7] 100 1 1) none 0
        (offeredInputs ++ dispatchedInputs)).2 = 0 :=
  ⟨by decide +kernel, by decide +kernel,
    (@one_fate [7] 100 1 1 none 0 _ fits_dispatched (100, 7)).2.1⟩

/-! ## Triggers that fire -/

/-- What is stored was collected, and what was collected was offered. -/
structure Known (state : State) (events : List Event) : Prop where
  stored : ∀ key ∈ state.snapshot, key ∈ state.accumulated
  collected : ∀ key ∈ state.accumulated, 1 ≤ times Event.offered? key events

theorem Known.offer {state : State} {events : List Event} (known : Known state events)
    (accepted : Bool) :
    Known (offer state accepted).1 (events ++ (offer state accepted).2) := by
  unfold ScheduleFlow.offer
  split
  · rwa [List.append_nil]
  · next entry chunk _ =>
    have grown : ∀ event : Event, event.offered? = some entry.key →
        ∀ key ∈ Insert.insert entry.key state.accumulated,
          1 ≤ times Event.offered? key (events ++ [event]) := by
      intro event offers key member
      rw [times_append, times_cons, offers]
      rcases Finset.mem_insert.mp member with rfl | old
      · simp
      · exact Nat.le_add_right_of_le (known.collected key old)
    have stored : ∀ key ∈ state.snapshot, key ∈ Insert.insert entry.key state.accumulated :=
      fun key member => Finset.mem_insert_of_mem (known.stored key member)
    cases accepted with
    | false => exact ⟨stored, grown _ rfl⟩
    | true => exact ⟨stored, grown _ rfl⟩

theorem known_run (schedule : Schedule) (manager : Option NonceManager) (startedAt : Instant)
    (inputs : List Input) :
    Known (run schedule manager startedAt inputs).1 (run schedule manager startedAt inputs).2 := by
  refine runAll_induction (fun state events known input _ => ?_) ⟨?_, ?_⟩
  · cases pump : input.ofPump with
    | false =>
      have frame := pumpFrame_step state pump
      refine ⟨?_, ?_⟩
      · rw [frame.snapshot, frame.accumulated]
        exact known.stored
      · rw [frame.accumulated]
        intro key member
        rw [times_append]
        exact Nat.le_add_right_of_le (known.collected key member)
    | true =>
      cases input with
      | offer accepted => exact known.offer accepted
      | nextChunk =>
        change Known (nextChunk state).1 (_ ++ (nextChunk state).2)
        unfold nextChunk
        split
        · rw [List.append_nil]
          exact ⟨known.stored, known.collected⟩
        · rwa [List.append_nil]
      | store =>
        change Known (store state).1 (_ ++ (store state).2)
        unfold store
        split
        · rw [List.append_nil]
          exact ⟨fun key member => member, known.collected⟩
        · rwa [List.append_nil]
      | fetch | insert | startSweep | dropBelow | finishSweep | dispatch | refresh | manage =>
        cases pump
  · exact fun key absent => absurd absent (Finset.notMem_empty key)
  · exact fun key absent => absurd absent (Finset.notMem_empty key)

/-- Events stay. -/
theorem times_run_le (schedule : Schedule) (manager : Option NonceManager) (startedAt : Instant)
    (past more : List Input) (kind : Event → Option (Nat × Nat)) (key : Nat × Nat) :
    times kind key (run schedule manager startedAt past).2 ≤
      times kind key (run schedule manager startedAt (past ++ more)).2 := by
  rw [run, run, runAll_append, times_append]
  exact Nat.le_add_right _ _

/-- **A trigger that fires is accounted for.** When the engine fires a trigger for an entry
with a stored schedule, then at any later time its transactions are in the pool exactly
when its entry was not refused, does not wait, was not late, is not held by the preparer,
was not dropped and was not dispatched; and never is it more than one of these. -/
theorem fired_accounted (rng : List Nat) (startSlot chunkSize triggersPerSlot : Nat)
    (manager : Option NonceManager) (startedAt : Instant) (past more : List Input)
    (fits : Fits rng startSlot chunkSize (past ++ more)) (engine : TriggerEngine.State)
    (entry : OrderedEntry) (now : Instant) (trig : TriggerEvent)
    (fired : trig ∈ TriggerEngine.triggersOf (TriggerEngine.handleEntry engine
      (run (Schedule.new rng startSlot chunkSize triggersPerSlot) manager startedAt past).1.snapshot
      entry now).2) :
    let final := run (Schedule.new rng startSlot chunkSize triggersPerSlot) manager startedAt
      (past ++ more)
    let key := (trig.slot, trig.tick)
    times Event.refused? key final.2 + waiting key final.1 +
      times Event.pastSlot? key final.2 + holding key final.1 +
      times Event.dropped? key final.2 + times Event.hit? key final.2 +
      (if (final.1.pool.get key).isSome then 1 else 0) = 1 := by
  intro final key
  have scheduled := (TriggerEngine.firedFor_handleEntry engine _ entry now trig fired).1
  have known := known_run (Schedule.new rng startSlot chunkSize triggersPerSlot) manager startedAt
    past
  have offered := known.collected key (known.stored key scheduled)
  have later := times_run_le (Schedule.new rng startSlot chunkSize triggersPerSlot) manager
    startedAt past more Event.offered? key
  have once := @offered_once rng startSlot chunkSize triggersPerSlot manager startedAt
    (past ++ more) fits key
  have fates := (account_run (Schedule.new rng startSlot chunkSize triggersPerSlot) manager
    startedAt (past ++ more) key).fates
  have kept := never_replaced _ key once
  change _ + pooled key final.1 = 1
  simp only [final, key] at offered later once kept fates ⊢
  omega

/-- The trigger of the offered entry, which is dispatched at once. -/
theorem fired_accounted_dispatched :
    let final := run (Schedule.new [7] 100 1 1) none 0 (offeredInputs ++ dispatchedInputs)
    times Event.refused? (100, 7) final.2 + waiting (100, 7) final.1 +
      times Event.pastSlot? (100, 7) final.2 + holding (100, 7) final.1 +
      times Event.dropped? (100, 7) final.2 + times Event.hit? (100, 7) final.2 +
      (if (final.1.pool.get (100, 7)).isSome then 1 else 0) = 1 :=
  fired_accounted [7] 100 1 1 none 0 offeredInputs dispatchedInputs fits_dispatched {}
    { slot := 100, entryIndex := 0, tickIdxInSlot := 7, cumulativeHashesInSlot := 0,
      observation := Samples.obs 100 0 0 0 1, wasReordered := false, waitDurationUs := 0,
      tickUncertain := false } 2
    ⟨.fromSlotTick 100 7, 100, 7, 2, false⟩ (by decide +kernel)

end SenderAnalysis.ScheduleFlow

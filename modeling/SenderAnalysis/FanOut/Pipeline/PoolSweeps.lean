import SenderAnalysis.FanOut.Pipeline.ScheduleFlow
import SenderAnalysis.FanOut.Samples

/-!
# What the counter of dropped triggers counts

The preparer reads the size of the pool, drops what is old, reads the size again and adds
the difference to its counter. The dispatcher takes transactions out of the pool in the
meantime, so the difference is what was dropped and what was dispatched between the two
readings. Nothing comes into the pool meanwhile, because only the preparer puts
transactions there.

So after every sweep of every run the counter is the number of dropped triggers and of
the triggers dispatched during a sweep (`evictions_counted`).
-/

set_option autoImplicit false

namespace SenderAnalysis.ScheduleFlow

/-- What an event adds to the counter. -/
def Event.amount : Event → Nat
  | .evictions amount => amount
  | _ => 0

/-- The value of the counter. -/
def evictionsCounted (events : List Event) : Nat := (events.map Event.amount).sum

def Event.isDropped : Event → Bool
  | .dropped _ => true
  | _ => false

def Event.isSweptHit : Event → Bool
  | .hit _ sweeping => sweeping
  | _ => false

/-- How many triggers were dropped, or dispatched while the preparer swept. -/
def takenBySweeps (events : List Event) : Nat :=
  events.countP Event.isDropped + events.countP Event.isSweptHit

@[simp] theorem evictionsCounted_append (first second : List Event) :
    evictionsCounted (first ++ second) = evictionsCounted first + evictionsCounted second := by
  simp [evictionsCounted]

@[simp] theorem takenBySweeps_append (first second : List Event) :
    takenBySweeps (first ++ second) = takenBySweeps first + takenBySweeps second := by
  simp only [takenBySweeps, List.countP_append]
  omega

/-- Events of one kind that neither count nor take anything. -/
theorem uncounted_map {α : Type} (values : List α) {event : α → Event}
    (quiet : ∀ value, (event value).amount = 0 ∧ (event value).isDropped = false ∧
      (event value).isSweptHit = false) :
    evictionsCounted (values.map event) = 0 ∧ takenBySweeps (values.map event) = 0 := by
  constructor
  · refine List.sum_eq_zero_iff_forall_eq_nat.mpr fun amount member => ?_
    obtain ⟨_, listed, rfl⟩ := List.mem_map.mp member
    obtain ⟨value, _, rfl⟩ := List.mem_map.mp listed
    exact (quiet value).1
  · simp [takenBySweeps, List.countP_eq_zero, quiet]

/-- Dropped triggers count as taken, one by one. -/
theorem takenBySweeps_dropped (keys : List (Nat × Nat)) :
    evictionsCounted (keys.map .dropped) = 0 ∧ takenBySweeps (keys.map .dropped) = keys.length := by
  constructor
  · refine List.sum_eq_zero_iff_forall_eq_nat.mpr fun amount member => ?_
    obtain ⟨_, listed, rfl⟩ := List.mem_map.mp member
    obtain ⟨key, _, rfl⟩ := List.mem_map.mp listed
    rfl
  · have all : Event.isDropped ∘ Event.dropped = fun _ => true := rfl
    have none : Event.isSweptHit ∘ Event.dropped = fun _ => false := rfl
    simp [takenBySweeps, List.countP_map, all, none]

/-- The size that was read at the beginning of a sweep. -/
def Sweep.before : Sweep → Nat
  | .started before _ | .dropped before => before

/-- What a sweep under way would count now. -/
def underway (state : State) : Nat :=
  (state.sweep.map fun sweep => sweep.before - state.pool.size).getD 0

/-- During a sweep nothing is signed and the pool does not grow, and the counter and the
sweep under way account for what has left the pool. -/
structure Counted (state : State) (events : List Event) : Prop where
  idle : state.sweep.isSome → state.preparer.signing = none
  shrinks : ∀ sweep, state.sweep = some sweep → state.pool.size ≤ sweep.before
  counted : evictionsCounted events + underway state = takenBySweeps events

section Steps

variable {state : State} {events : List Event}

/-- A step that touches neither the pool nor the sweep, and signs nothing during one. -/
theorem Counted.still (counted : Counted state events) {next : State} {more : List Event}
    (pool : next.pool = state.pool) (sweep : next.sweep = state.sweep)
    (idle : state.sweep.isSome → next.preparer.signing = none)
    (nothing : evictionsCounted more = 0 ∧ takenBySweeps more = 0) :
    Counted next (events ++ more) where
  idle := sweep ▸ idle
  shrinks := by
    rw [pool, sweep]
    exact counted.shrinks
  counted := by
    have same : underway next = underway state := by rw [underway, underway, pool, sweep]
    rw [evictionsCounted_append, takenBySweeps_append, nothing.1, nothing.2, same]
    exact counted.counted

/-- Without a sweep, what comes into the pool is of no account. -/
theorem Counted.outside (counted : Counted state events) {next : State} {more : List Event}
    (none : state.sweep = none) (none' : next.sweep = Option.none)
    (nothing : evictionsCounted more = 0 ∧ takenBySweeps more = 0) :
    Counted next (events ++ more) where
  idle := by simp [none']
  shrinks := by simp [none']
  counted := by
    have before := counted.counted
    simp only [underway, none, Option.map_none, Option.getD_none] at before
    simp only [underway, none', Option.map_none, Option.getD_none, evictionsCounted_append,
      takenBySweeps_append, nothing]
    omega

theorem Counted.fetch (counted : Counted state events) (currentSlot : Nat) (now : Instant) :
    Counted (fetch state currentSlot now).1 (events ++ (fetch state currentSlot now).2) := by
  unfold ScheduleFlow.fetch
  split
  · rwa [List.append_nil]
  · next quiet =>
    have noSweep : state.sweep = none := by
      have both := Bool.or_eq_false_iff.mp (Bool.eq_false_iff.mpr quiet)
      simpa using both.2
    dsimp only
    split
    · exact counted.outside noSweep noSweep (uncounted_map _ fun _ => ⟨rfl, rfl, rfl⟩)
    · next preparer entry _ =>
      refine counted.outside noSweep ?_ (uncounted_map _ fun _ => ⟨rfl, rfl, rfl⟩)
      unfold acquire
      split <;> exact noSweep

theorem Counted.insert (counted : Counted state events) (signed : List (UInt8 × Signature)) :
    Counted (insert state signed).1 (events ++ (insert state signed).2) := by
  unfold ScheduleFlow.insert
  split
  · rwa [List.append_nil]
  · next signing found =>
    -- the preparer is signing, so it does not sweep
    have noSweep : state.sweep = none := by
      cases sweeping : state.sweep with
      | none => rfl
      | some sweep =>
        have free := counted.idle (by simp [sweeping])
        rw [found] at free
        cases free
    refine counted.outside noSweep noSweep ?_
    split <;> exact ⟨rfl, rfl⟩

theorem Counted.startSweep (counted : Counted state events) (currentSlot : Nat) (now : Instant) :
    Counted (startSweep state currentSlot now).1
      (events ++ (startSweep state currentSlot now).2) := by
  unfold ScheduleFlow.startSweep
  split
  · rwa [List.append_nil]
  · next quiet =>
    obtain ⟨unsigned, noSweep⟩ : state.preparer.signing = none ∧ state.sweep = none := by
      simpa using Bool.or_eq_false_iff.mp (Bool.eq_false_iff.mpr quiet)
    have before := counted.counted
    simp only [underway, noSweep, Option.map_none, Option.getD_none] at before
    rw [List.append_nil]
    refine ⟨fun _ => ?_, ?_, ?_⟩
    · unfold Preparer.maybeEvict
      dsimp only
      split <;> exact unsigned
    · intro sweep started
      obtain ⟨cutoff, _, rfl⟩ := Option.map_eq_some_iff.mp started
      exact Nat.le_refl _
    · cases due : Preparer.evictCutoff state.preparer currentSlot now <;>
        simp only [underway, Option.map_none, Option.map_some, Option.getD_none,
          Option.getD_some, Sweep.before] <;> omega

/-- What is dropped and what stays make up the pool. -/
theorem size_evictBelow (pool : TxPool) (cutoff : Nat) :
    (pool.keys.filter fun key => key.1 < cutoff).length + (pool.evictBelow cutoff).size =
      pool.size := by
  have kept : (pool.evictBelow cutoff).size =
      (pool.keys.filter fun key => !decide (key.1 < cutoff)).length := by
    rw [TxPool.keys, List.filter_map, List.length_map]
    unfold TxPool.evictBelow HashTable.retain HashTable.size
    dsimp only
    refine congrArg List.length (List.filter_congr fun entry _ => ?_)
    by_cases low : entry.1.1 < cutoff
    · simp [low]
    · simp [low, Nat.le_of_not_lt low]
  rw [kept, ← List.length_eq_length_filter_add]
  simp [TxPool.keys, HashTable.size]

theorem Counted.dropBelow (counted : Counted state events) :
    Counted (dropBelow state).1 (events ++ (dropBelow state).2) := by
  unfold ScheduleFlow.dropBelow
  split
  · next before cutoff sweeping =>
    have sizes := size_evictBelow state.pool cutoff
    have larger := counted.shrinks _ sweeping
    have account := counted.counted
    simp only [underway, sweeping, Option.map_some, Option.getD_some, Sweep.before]
      at account larger
    refine ⟨fun _ => counted.idle (by simp [sweeping]), ?_, ?_⟩
    · rintro sweep ⟨⟩
      dsimp only [Sweep.before]
      omega
    · rw [evictionsCounted_append, takenBySweeps_append, (takenBySweeps_dropped _).1,
        (takenBySweeps_dropped _).2]
      simp only [underway, Option.map_some, Option.getD_some, Sweep.before]
      omega
  · rwa [List.append_nil]
  · rwa [List.append_nil]

theorem Counted.finishSweep (counted : Counted state events) :
    Counted (finishSweep state).1 (events ++ (finishSweep state).2) := by
  unfold ScheduleFlow.finishSweep
  split
  · next before sweeping =>
    have account := counted.counted
    simp only [underway, sweeping, Option.map_some, Option.getD_some, Sweep.before] at account
    refine ⟨by simp, by simp, ?_⟩
    simp only [underway, Option.map_none, Option.getD_none]
    split
    · have amount : evictionsCounted [.evictions (before - state.pool.size)] =
          before - state.pool.size := by simp [evictionsCounted, Event.amount]
      have none : takenBySweeps [.evictions (before - state.pool.size)] = 0 := rfl
      rw [evictionsCounted_append, takenBySweeps_append, amount, none]
      omega
    · rw [List.append_nil]
      omega
  · rwa [List.append_nil]
  · rwa [List.append_nil]

theorem Counted.dispatch (counted : Counted state events) (trig : TriggerEvent) :
    Counted (dispatch state trig).1 (events ++ (dispatch state trig).2) := by
  unfold ScheduleFlow.dispatch TxPool.take
  split
  · next pool variants taken =>
    have parts := Prod.mk.inj taken
    have found : state.pool.get (trig.slot, trig.tick) = some variants := parts.2
    have left : pool = state.pool.remove (trig.slot, trig.tick) := parts.1.symm
    subst left
    have fewer := HashTable.size_remove found
    cases sweeping : state.sweep with
    | none => exact counted.outside sweeping rfl ⟨rfl, rfl⟩
    | some sweep =>
      have larger := counted.shrinks sweep sweeping
      have account := counted.counted
      simp only [underway, sweeping, Option.map_some, Option.getD_some] at account
      refine ⟨fun _ => counted.idle (by simp [sweeping]), ?_, ?_⟩
      · rintro other ⟨⟩
        dsimp only
        omega
      · have one : takenBySweeps [.hit trig true] = 1 := rfl
        have none : evictionsCounted [.hit trig true] = 0 := rfl
        simp only [underway, Option.map_some, Option.getD_some, Option.isSome_some,
          evictionsCounted_append, takenBySweeps_append, one, none]
        omega
  · refine counted.still rfl rfl counted.idle ?_
    split <;> exact ⟨rfl, rfl⟩

end Steps

theorem counted_run (schedule : Schedule) (manager : Option NonceManager) (startedAt : Instant)
    (inputs : List Input) :
    Counted (run schedule manager startedAt inputs).1
      (run schedule manager startedAt inputs).2 := by
  refine runAll_induction (fun state events counted input _ => ?_) ⟨by simp [initial], by
    simp [initial], rfl⟩
  cases input with
  | fetch currentSlot now => exact counted.fetch currentSlot now
  | insert signed => exact counted.insert signed
  | startSweep currentSlot now => exact counted.startSweep currentSlot now
  | dropBelow => exact counted.dropBelow
  | finishSweep => exact counted.finishSweep
  | dispatch trig => exact counted.dispatch trig
  | refresh | manage => exact counted.still rfl rfl counted.idle ⟨rfl, rfl⟩
  | nextChunk =>
    change Counted (nextChunk state).1 (_ ++ (nextChunk state).2)
    unfold nextChunk
    split <;> exact counted.still rfl rfl counted.idle ⟨rfl, rfl⟩
  | store =>
    change Counted (store state).1 (_ ++ (store state).2)
    unfold store
    split <;> exact counted.still rfl rfl counted.idle ⟨rfl, rfl⟩
  | offer accepted =>
    change Counted (offer state accepted).1 (_ ++ (offer state accepted).2)
    unfold offer
    split
    · exact counted.still rfl rfl counted.idle ⟨rfl, rfl⟩
    · cases accepted <;> exact counted.still rfl rfl counted.idle ⟨rfl, rfl⟩

/-- **The counter of dropped triggers counts those dispatched during a sweep, too.** It is
never more than the dropped triggers and these, and exactly that when no sweep is under
way. -/
theorem evictions_counted (schedule : Schedule) (manager : Option NonceManager)
    (startedAt : Instant) (inputs : List Input) :
    let final := run schedule manager startedAt inputs
    evictionsCounted final.2 ≤ final.2.countP Event.isDropped + final.2.countP Event.isSweptHit ∧
      (final.1.sweep = none → evictionsCounted final.2 =
        final.2.countP Event.isDropped + final.2.countP Event.isSweptHit) := by
  intro final
  have account : evictionsCounted final.2 + underway final.1 =
      final.2.countP Event.isDropped + final.2.countP Event.isSweptHit :=
    (counted_run schedule manager startedAt inputs).counted
  refine ⟨by omega, fun none => ?_⟩
  rw [underway, none] at account
  simpa using account

/-- A trigger is dispatched between the two readings, and counted though none is dropped. -/
example :
    (run (Schedule.new [7] 100 1 1) none 0
      [.nextChunk, .offer true, .refresh (Samples.hash 1), .fetch 0 1, .insert [],
        .startSweep 50 600000000, .dispatch ⟨.fromSlotTick 100 7, 100, 7, 2, false⟩, .dropBelow,
        .finishSweep]).2 =
      [.queued ⟨100, 7⟩, .prepared ⟨100, 7⟩, .hit ⟨.fromSlotTick 100 7, 100, 7, 2, false⟩ true,
        .evictions 1] := by
  decide +kernel

end SenderAnalysis.ScheduleFlow

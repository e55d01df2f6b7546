import SenderAnalysis.FanOut.Samples
import SenderAnalysis.FanOut.PohSupervisor.TickSteps
import SenderAnalysis.FanOut.TriggerEngine.Firing

/-!
# Scheduled ticks, from the supervisor to the engine

The engine fires on equality with the scheduled tick, so a tick index that no entry
carries loses its trigger. The supervisor skips an index only by counting a late
tick. Without late ticks of a slot every index up to the one of an emitted entry is
carried by some entry, and the engine fires every scheduled one of them, once.
-/

set_option autoImplicit false

namespace SenderAnalysis

open PohSupervisor TriggerEngine

namespace PohSupervisor

/-- The tick indices of an incarnation never decrease, grow by at most one from
entry to entry over any stretch without a late tick, and the last entry of an input
carries the index a stretch after it begins with. -/
structure StepwiseTicks (cfg : Config) (slotKey : Nat) (own : List SlotInput) : Prop where
  sorted : (emittedTicks (incarnationEvents cfg slotKey own)).Pairwise (· ≤ ·)
  stepwise : ∀ past more, own = past ++ more → EachAfter (NoLateInput cfg slotKey past) more →
    ((slotRun cfg slotKey past).1.tickIdx :: emittedTicks
      (sent (runAll (slotStep cfg slotKey) (slotRun cfg slotKey past).1 more).2)).IsChain UpByOne
  carried : ∀ past input more tick, own = past ++ input :: more →
    (emittedTicks (sent (slotStep cfg slotKey (slotRun cfg slotKey past).1 input).2)).getLast? =
      some tick →
    (slotRun cfg slotKey (past ++ [input])).1.tickIdx = tick

/-- A late tick emits nothing. -/
theorem emittedTicks_of_late {cfg : Config} {slotKey : Nat} {slot : PohSlot} {merged : MergedEntry}
    {now : Instant} (late : LateTick slot merged.observation) :
    emittedTicks (sent (slotStep cfg slotKey slot (.arrive merged now)).2) = [] := by
  show emittedTicks (sent (processSlot cfg slot merged now).2) = []
  rw [processSlot_late late.1 late.2.1]
  rfl

theorem slotRun_stepwiseTicks (cfg : Config) (slotKey : Nat) (own : List SlotInput) :
    StepwiseTicks cfg slotKey own where
  sorted := (slotRun_monotone cfg slotKey own).sorted
  stepwise := fun past more _ noLate => (slotRun_stretch cfg slotKey past more noLate).stepwise
  carried := by
    intro past input more tick _ last
    have noLate : EachAfter (NoLateInput cfg slotKey past) ([] ++ [input]) := by
      refine eachAfter_concat.mpr ⟨eachAfter_nil _, ?_⟩
      rintro merged now rfl late
      rw [List.append_nil] at late
      rw [emittedTicks_of_late late] at last
      cases last
    have stretch := slotRun_stretch cfg slotKey past [input] noLate
    have reached := stretch.reached
    rw [runAll_cons, runAll_nil, List.append_nil, List.getLast?_cons, last] at reached
    exact (Option.some.inj reached).symm

/-- An arrival of the slot is no late tick. -/
def NoLateTick (cfg : Config) (slotKey : Nat) (past : List Input) (input : Input) : Prop :=
  ∀ merged, input.arrivalAt? slotKey = some merged →
    ¬ LateTick (stateFound cfg slotKey past) merged.observation

/-- **Without late ticks of a slot, every tick index up to that of an emitted entry
is carried by an entry.** -/
theorem carried_of_noLateTick {cfg : Config} {slotKey : Nat} {inputs : List Input}
    (noLate : EachAfter (NoLateTick cfg slotKey) inputs) {e : OrderedEntry}
    (emitted : OrderedEvent.entry e ∈ events cfg inputs) (own : e.slot = slotKey) {tick : Nat}
    (positive : 0 < tick) (upTo : tick ≤ e.tickIdxInSlot) :
    ∃ other, OrderedEvent.entry other ∈ events cfg inputs ∧ other.slot = slotKey ∧
      other.tickIdxInSlot = tick := by
  have accounted := (tracked_run cfg slotKey inputs).emitted
  have listed : OrderedEvent.entry e ∈ eventsAt slotKey (PohSupervisor.run cfg inputs).2 :=
    List.mem_filter.mpr ⟨emitted, by simp [OrderedEvent.slot, own]⟩
  rw [accounted] at listed
  obtain ⟨incarnation, member, within⟩ := List.mem_flatMap.mp listed
  have each := @incarnations_eachAfter cfg slotKey (NoLateInput cfg slotKey []) ?_ inputs ?_
    incarnation member
  · have stretch := slotRun_stretch cfg slotKey [] incarnation each
    have present : e.tickIdxInSlot ∈ emittedTicks (incarnationEvents cfg slotKey incarnation) :=
      List.mem_map_of_mem (mem_emittedEntries.mpr within)
    have passed := mem_of_upByOne stretch.stepwise present positive upTo
    obtain ⟨other, carries, same⟩ := List.mem_map.mp passed
    have found : OrderedEvent.entry other ∈ eventsAt slotKey (PohSupervisor.run cfg inputs).2 := by
      rw [accounted]
      exact List.mem_flatMap.mpr ⟨incarnation, member, mem_emittedEntries.mp carries⟩
    obtain ⟨sentOut, ofSlot⟩ := List.mem_filter.mp found
    exact ⟨other, sentOut, by simpa [OrderedEvent.slot] using ofSlot, same⟩
  · rintro past _ silent merged now rfl
    cases silent
  · intro before input after split merged now same ofSlot
    rintro merged' now' ⟨⟩
    rw [List.nil_append, ← stateFound_eq]
    exact noLate before input after split merged (by simp [same, Input.arrivalAt?, ofSlot])

end PohSupervisor

namespace TriggerEngine

/-- The engine handles the events in order, with one schedule, from a state in which
nothing has fired. -/
structure Handles (schedule : Finset (Nat × Nat)) (events : List OrderedEvent) (start : State)
    (received : List Input) : Prop where
  fresh : start.fired = ∅
  inOrder : received.filterMap Input.event? = events
  fixed : FixedSchedule schedule received

theorem Handles.entriesOf {schedule : Finset (Nat × Nat)} {events : List OrderedEvent}
    {start : State} {received : List Input} (handles : Handles schedule events start received) :
    entriesOf received = emittedEntries events := by
  rw [← handles.inOrder, emittedEntries, List.filterMap_filterMap]
  rfl

end TriggerEngine

/-- **Scheduled ticks are not skipped.** In every run of the supervisor the tick
indices of every incarnation are stepwise. When no late tick of a slot arrives, the
engine that handles the events fires every scheduled tick of the slot up to the
index of an emitted entry, and exactly once when no entry of the slot comes after
an entry of a slot more than 256 ahead. -/
theorem scheduled_ticks_fire (cfg : Config) (inputs : List PohSupervisor.Input) (slotKey : Nat) :
    (∀ own ∈ incarnations cfg slotKey inputs, StepwiseTicks cfg slotKey own) ∧
    ∀ (schedule : Finset (Nat × Nat)) (start : TriggerEngine.State)
      (received : List TriggerEngine.Input) (e : OrderedEntry) (tick : Nat),
      EachAfter (NoLateTick cfg slotKey) inputs →
      Handles schedule (events cfg inputs) start received →
      OrderedEvent.entry e ∈ events cfg inputs →
      e.slot = slotKey → 0 < tick → tick ≤ e.tickIdxInSlot → (slotKey, tick) ∈ schedule →
      1 ≤ firings slotKey tick (TriggerEngine.run start received).2 ∧
        (EachAfter (WithinWindow slotKey) (emittedEntries (events cfg inputs)) →
          firings slotKey tick (TriggerEngine.run start received).2 = 1) := by
  refine ⟨fun own _ => slotRun_stepwiseTicks cfg slotKey own, ?_⟩
  intro schedule start received e tick noLate handles emitted own positive upTo scheduled
  obtain ⟨other, present, ofSlot, same⟩ := carried_of_noLateTick noLate emitted own positive upTo
  have account := firingState_run positive scheduled start handles.fresh received handles.fixed
  rw [handles.entriesOf] at account
  have seen : ∃ e ∈ emittedEntries (events cfg inputs), e.slot = slotKey ∧
      e.tickIdxInSlot = tick :=
    ⟨other, mem_emittedEntries.mpr present, ofSlot, same⟩
  exact ⟨account.seen seen, fun window => (account.once window seen).1⟩

/-! ## A late tick skips a scheduled tick -/

/-- The engine's inputs for a list of events, with one schedule. -/
def handling (schedule : Finset (Nat × Nat)) (events : List OrderedEvent) :
    List TriggerEngine.Input :=
  events.map fun event => .receive event schedule 0

theorem handles_handling (schedule : Finset (Nat × Nat)) (events : List OrderedEvent) :
    Handles schedule events {} (handling schedule events) where
  fresh := rfl
  inOrder := by
    have same : (handling schedule events).filterMap TriggerEngine.Input.event? =
        events.filterMap some := by
      rw [handling, List.filterMap_map]
      rfl
    rw [same, List.filterMap_some]
  fixed := by
    intro event loaded now member
    obtain ⟨_, _, same⟩ := List.mem_map.mp member
    cases same
    rfl

open Samples in
/-- Index 0 is reported missing, and then its tick arrives. -/
def lateTickInputs : List PohSupervisor.Input :=
  [.receive (merged 100 1 12500 1 1) 0, .sweep 100, .receive (merged 100 0 12500 0 2) 101,
    .receive (merged 100 2 12500 0 3) 102, .shutdown 103]

open Samples in
/-- The two entries carry the ticks 0 and 2, and the scheduled tick 1 never fires. -/
theorem lateTickInputs_skip :
    emittedTicks (events (cfgWith 50) lateTickInputs) = [0, 2] ∧
      firings 100 1 (TriggerEngine.run {}
        (handling {(100, 1)} (events (cfgWith 50) lateTickInputs))).2 = 0 := by
  decide +kernel

open Samples in
/-- A tick and an entry with a transaction, in order. -/
def punctualInputs : List PohSupervisor.Input :=
  [.receive (merged 100 0 12500 0 1) 1, .receive (merged 100 1 12500 1 2) 2, .shutdown 3]

open Samples in
theorem punctualInputs_noLateTick :
    EachAfter (NoLateTick (cfgWith 50) 100) punctualInputs := by
  refine (@eachAfter_concat _ _ [_, _] _).mpr ⟨(@eachAfter_concat _ _ [_] _).mpr
    ⟨(@eachAfter_concat _ _ [] _).mpr ⟨eachAfter_nil _, ?_⟩, ?_⟩, ?_⟩
  · rintro entry ⟨⟩ late
    exact absurd late.2.1 (by decide +kernel)
  · rintro entry ⟨⟩ late
    exact absurd late.2.1 (by decide +kernel)
  · rintro entry ⟨⟩

open Samples in
theorem scheduled_ticks_fire_punctualInputs :
    1 ≤ firings 100 1 (TriggerEngine.run {}
      (handling {(100, 1)} (events (cfgWith 50) punctualInputs))).2 :=
  ((scheduled_ticks_fire (cfgWith 50) punctualInputs 100).2 {(100, 1)} {}
    (handling {(100, 1)} (events (cfgWith 50) punctualInputs))
    { slot := 100, entryIndex := 0, tickIdxInSlot := 1, cumulativeHashesInSlot := 12500,
      observation := obs 100 0 12500 0 1, wasReordered := false, waitDurationUs := 0,
      tickUncertain := false }
    1 punctualInputs_noLateTick (handles_handling _ _) (by decide +kernel) rfl (by decide)
    (by decide) (by decide)).1

end SenderAnalysis

import Mathlib.Data.List.Chain
import SenderAnalysis.FanOut.PohSupervisor.Incarnations

/-!
# The steps of the tick index

The entries of an incarnation carry the tick index the slot has reached. It never
decreases. It grows by at most one from entry to entry as long as no late tick is
counted: a tick that arrives below the cursor moves the index without an entry that
carries it, so that the slot's terminal event reflects every tick that arrived, and
the next entry can be two ticks ahead of the one before it.
-/

set_option autoImplicit false

namespace SenderAnalysis.PohSupervisor

open Std OrderedMap

/-- The tick indices the entries of a trace carry. -/
def emittedTicks (events : List OrderedEvent) : List Nat :=
  (emittedEntries events).map fun e => e.tickIdxInSlot

@[simp] theorem emittedTicks_append (first second : List OrderedEvent) :
    emittedTicks (first ++ second) = emittedTicks first ++ emittedTicks second := by
  simp [emittedTicks]

/-- The next tick index is the same or one more. -/
def UpByOne (tick next : Nat) : Prop := tick ≤ next ∧ next ≤ tick + 1

theorem countTick_upByOne (tickIdx : Nat) (observation : EntryObservation) (small : tickIdx ≤ 64) :
    UpByOne tickIdx (countTick tickIdx observation) := by
  unfold UpByOne countTick saturatingAdd
  split <;> omega

theorem countTick_le (tickIdx : Nat) (observation : EntryObservation) (small : tickIdx ≤ 64) :
    countTick tickIdx observation ≤ 64 := by
  unfold countTick saturatingAdd ticksPerSlot
  split <;> omega

/-- A tick that arrives below the cursor of an open slot and moves the index. -/
def LateTick (slot : PohSlot) (observation : EntryObservation) : Prop :=
  slot.isSealed = false ∧ observation.entryIndex < slot.nextExpectedIdx ∧
    observation.isTick = true ∧ slot.tickIdx < ticksPerSlot

/-! ## What a move does to the tick index -/

/-- A move emits at most one entry. It carries the new index, which is the same as
before or one more; without an entry the index only moves for a late tick. -/
theorem Move.tickSteps {cfg : Config} {slotKey : Nat} {slot : PohSlot} {label : Option SlotInput}
    {result : PohSlot × List SupervisorEffect} (move : Move cfg slotKey slot label result)
    (small : slot.tickIdx ≤ 64) :
    UpByOne slot.tickIdx result.1.tickIdx ∧ result.1.tickIdx ≤ 64 ∧
      (emittedTicks (sent result.2) = [result.1.tickIdx] ∨
        emittedTicks (sent result.2) = [] ∧
          (result.1.tickIdx = slot.tickIdx ∨
            ∃ merged now, label = some (.arrive merged now) ∧
              LateTick slot merged.observation)) := by
  have still : UpByOne slot.tickIdx slot.tickIdx := ⟨Nat.le_refl _, Nat.le_succ _⟩
  cases move with
  | afterSeal | buffer | refuse | advance | sealing =>
    exact ⟨still, small, .inr ⟨rfl, .inl rfl⟩⟩
  | emit merged now opened here =>
    exact ⟨countTick_upByOne _ _ small, countTick_le _ _ small, .inl rfl⟩
  | late merged now opened below =>
    refine ⟨countTick_upByOne _ _ small, countTick_le _ _ small, .inr ⟨rfl, ?_⟩⟩
    by_cases counts : merged.observation.txCount = 0 ∧ slot.tickIdx < ticksPerSlot
    · refine .inr ⟨merged, now, rfl, opened, below, ?_, counts.2⟩
      simp [EntryObservation.isTick, counts.1]
    · refine .inl ?_
      show countTick slot.tickIdx merged.observation = slot.tickIdx
      rw [countTick, if_neg counts]
  | pop now entry opened found =>
    exact ⟨countTick_upByOne _ _ small, countTick_le _ _ small, .inl rfl⟩
  | skip now first entry opened found gap =>
    exact ⟨still, small, .inr ⟨rfl, .inl rfl⟩⟩
  | close now opened emptied =>
    refine ⟨still, small, .inr ⟨?_, .inl rfl⟩⟩
    rw [sent_closingEffects]
    unfold terminalEvent
    split <;> rfl

/-! ## The index never decreases -/

/-- The indices of a trace do not decrease and have not passed the slot's. -/
structure Monotone (slot : PohSlot) (events : List OrderedEvent) : Prop where
  small : slot.tickIdx ≤ 64
  sorted : (emittedTicks events).Pairwise (· ≤ ·)
  reached : ∀ tick ∈ emittedTicks events, tick ≤ slot.tickIdx

theorem Move.monotone {cfg : Config} {slotKey : Nat} {slot : PohSlot} {label : Option SlotInput}
    {result : PohSlot × List SupervisorEffect} {events : List OrderedEvent}
    (move : Move cfg slotKey slot label result) (monotone : Monotone slot events) :
    Monotone result.1 (events ++ sent result.2) := by
  obtain ⟨up, small, emitted⟩ := move.tickSteps monotone.small
  have reached : ∀ tick ∈ emittedTicks events, tick ≤ result.1.tickIdx :=
    fun tick member => Nat.le_trans (monotone.reached tick member) up.1
  refine ⟨small, ?_, ?_⟩
  · rw [emittedTicks_append]
    rcases emitted with one | ⟨none, _⟩
    · rw [one, List.pairwise_append]
      refine ⟨monotone.sorted, List.pairwise_singleton _ _, ?_⟩
      intro tick member last same
      rw [List.mem_singleton.mp same]
      exact reached tick member
    · rw [none, List.append_nil]
      exact monotone.sorted
  · intro tick member
    rw [emittedTicks_append, List.mem_append] at member
    rcases member with old | new
    · exact reached tick old
    · rcases emitted with one | ⟨none, _⟩
      · rw [one] at new
        exact Nat.le_of_eq (List.mem_singleton.mp new)
      · rw [none] at new
        cases new

/-- **The tick indices of an incarnation never decrease.** -/
theorem slotRun_monotone (cfg : Config) (slotKey : Nat) (own : List SlotInput) :
    Monotone (slotRun cfg slotKey own).1 (incarnationEvents cfg slotKey own) := by
  refine @slotRun_induction cfg slotKey (fun _ slot effects => Monotone slot (sent effects))
    ⟨by simp, by simp [emittedTicks, emittedEntries], by simp [emittedTicks, emittedEntries]⟩ ?_ own
  intro past slot effects label result monotone _ _ move
  rw [sent_append]
  exact move.monotone monotone

/-! ## Stretches without a late tick -/

/-- The tick indices of a stretch, from the index the stretch began with. -/
structure Stretch (start : Nat) (slot : PohSlot) (ticks : List Nat) : Prop where
  small : slot.tickIdx ≤ 64
  stepwise : (start :: ticks).IsChain UpByOne
  reached : (start :: ticks).getLast? = some slot.tickIdx

theorem Move.stretch {cfg : Config} {slotKey : Nat} {slot : PohSlot} {label : Option SlotInput}
    {result : PohSlot × List SupervisorEffect} {start : Nat} {ticks : List Nat}
    (move : Move cfg slotKey slot label result) (stretch : Stretch start slot ticks)
    (noLate : ∀ merged now, label = some (.arrive merged now) →
      ¬ LateTick slot merged.observation) :
    Stretch start result.1 (ticks ++ emittedTicks (sent result.2)) := by
  obtain ⟨up, small, emitted⟩ := move.tickSteps stretch.small
  rcases emitted with one | ⟨none, same | ⟨merged, now, label, late⟩⟩
  · rw [one]
    refine ⟨small, ?_, ?_⟩
    · rw [← List.cons_append, List.isChain_append]
      refine ⟨stretch.stepwise, List.isChain_singleton _, ?_⟩
      intro last found next same
      rw [stretch.reached] at found
      cases found
      cases same
      exact up
    · rw [← List.cons_append]
      exact List.getLast?_concat
  · rw [none, List.append_nil]
    exact ⟨small, stretch.stepwise, by rw [same]; exact stretch.reached⟩
  · exact absurd late (noLate merged now label)

theorem Moves.stretch {cfg : Config} {slotKey : Nat} {first slot : PohSlot}
    {effects : List SupervisorEffect} {start : Nat} {ticks : List Nat}
    (moves : Moves cfg slotKey first slot effects) (stretch : Stretch start first ticks) :
    Stretch start slot (ticks ++ emittedTicks (sent effects)) := by
  induction moves with
  | done => simpa [emittedTicks, emittedEntries] using stretch
  | snoc earlier below move ih =>
    rw [sent_append, emittedTicks_append, ← List.append_assoc]
    exact move.stretch ih (by simp)

/-- No input of a stretch of an incarnation is a late tick. -/
def NoLateInput (cfg : Config) (slotKey : Nat) (past before : List SlotInput) (input : SlotInput) :
    Prop :=
  ∀ merged now, input = .arrive merged now →
    ¬ LateTick (slotRun cfg slotKey (past ++ before)).1 merged.observation

/-- **Over a stretch of an incarnation without a late tick, the tick indices grow by
at most one from entry to entry, beginning with the index of the slot.** -/
theorem slotRun_stretch (cfg : Config) (slotKey : Nat) (past more : List SlotInput)
    (noLate : EachAfter (NoLateInput cfg slotKey past) more) :
    Stretch (slotRun cfg slotKey past).1.tickIdx (slotRun cfg slotKey (past ++ more)).1
      (emittedTicks
        (sent (runAll (slotStep cfg slotKey) (slotRun cfg slotKey past).1 more).2)) := by
  induction more using List.reverseRecOn with
  | nil =>
    rw [List.append_nil]
    exact ⟨(slotRun_monotone cfg slotKey past).small, List.isChain_singleton _, rfl⟩
  | append_singleton more input ih =>
    rw [eachAfter_concat] at noLate
    have earlier := ih noLate.1
    have whole := slotRun_append cfg slotKey past more
    have same : (runAll (slotStep cfg slotKey) (slotRun cfg slotKey past).1 more).1 =
        (slotRun cfg slotKey (past ++ more)).1 := by rw [whole]
    obtain ⟨first, rest, move, moves, effects⟩ :=
      (@slotStep_consumed cfg slotKey _ (slotRun_quiet cfg slotKey (past ++ more)) input).split
    have begun := move.stretch earlier (by
      rintro merged now ⟨⟩
      exact noLate.2 merged now rfl)
    have stepped := moves.stretch begun
    rw [List.append_assoc] at stepped
    rw [← List.append_assoc, slotRun_concat, runAll_concat, same, effects, sent_append,
      emittedTicks_append, sent_append, emittedTicks_append]
    exact stepped

/-- A list that grows by at most one at a time passes through every value. -/
theorem mem_of_upByOne {start tick reached : Nat} {ticks : List Nat}
    (stepwise : (start :: ticks).IsChain UpByOne) (member : reached ∈ ticks)
    (above : start < tick) (upTo : tick ≤ reached) : tick ∈ ticks := by
  induction ticks generalizing start with
  | nil => cases member
  | cons next rest ih =>
    rw [List.isChain_cons_cons] at stepwise
    obtain ⟨⟨_, up⟩, later⟩ := stepwise
    rcases Nat.lt_or_ge next tick with below | here
    · rcases List.mem_cons.mp member with rfl | member'
      · omega
      · exact List.mem_cons_of_mem _ (ih later member' below)
    · have same : tick = next := by omega
      exact same ▸ List.mem_cons_self ..

end SenderAnalysis.PohSupervisor

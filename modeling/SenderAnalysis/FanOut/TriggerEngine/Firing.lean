import SenderAnalysis.Foundations.Traces
import SenderAnalysis.FanOut.TriggerEngine.Model

/-!
# When the engine fires

A scheduled tick of a slot is fired by the first entry that carries it, and the set
of fired ticks keeps a second entry from firing it again. The set forgets the ticks
of a slot once an entry of a slot more than 256 ahead is handled, so a tick is
fired exactly once as long as no entry of the slot comes after such an entry.
-/

set_option autoImplicit false

namespace SenderAnalysis.TriggerEngine

/-- The triggers among the effects. -/
def triggersOf (effects : List EngineEffect) : List TriggerEvent :=
  (sent effects).filterMap Message.trigger?

@[simp] theorem triggersOf_append (first second : List EngineEffect) :
    triggersOf (first ++ second) = triggersOf first ++ triggersOf second := by
  simp [triggersOf]

/-- How often a tick of a slot was fired. -/
def firings (slot tick : Nat) (effects : List EngineEffect) : Nat :=
  (triggersOf effects).countP fun trigger => trigger.slot == slot && trigger.tick == tick

@[simp] theorem firings_append (slot tick : Nat) (first second : List EngineEffect) :
    firings slot tick (first ++ second) = firings slot tick first + firings slot tick second := by
  simp [firings]

/-! ## The parts of an entry's handling -/

section Parts

variable (engine : State) (schedule : Finset (Nat × Nat)) (entry : OrderedEntry) (now : Instant)

/-- Matching signatures touches nothing but the pending signatures, and fires no
trigger. -/
theorem matching_frame (signatures : List Signature) :
    (runAll (matchSignature entry now) engine signatures).1.fired = engine.fired ∧
      (runAll (matchSignature entry now) engine signatures).1.lastCompactSlot =
        engine.lastCompactSlot ∧
      (runAll (matchSignature entry now) engine signatures).1.nonceSlotHashCache =
        engine.nonceSlotHashCache ∧
      triggersOf (runAll (matchSignature entry now) engine signatures).2 = [] := by
  induction signatures generalizing engine with
  | nil => exact ⟨rfl, rfl, rfl, rfl⟩
  | cons signature rest ih =>
    obtain ⟨fired, compacted, cache, silent⟩ := ih (matchSignature entry now engine signature).1
    rw [runAll_cons]
    refine ⟨fired.trans ?_, compacted.trans ?_, cache.trans ?_, ?_⟩
    · unfold matchSignature
      split <;> rfl
    · unfold matchSignature
      split <;> rfl
    · unfold matchSignature
      split <;> rfl
    · rw [triggersOf_append, silent, List.append_nil]
      unfold matchSignature
      split <;> rfl

/-- The entry carries a scheduled tick. -/
def Scheduled : Prop :=
  entry.tickIdxInSlot > 0 ∧ (entry.slot, entry.tickIdxInSlot) ∈ schedule

instance : Decidable (Scheduled schedule entry) := inferInstanceAs (Decidable (_ ∧ _))

theorem scheduleCheck_fired :
    (scheduleCheck engine schedule entry now).1.fired =
      if Scheduled schedule entry then
        insert (entry.slot, entry.tickIdxInSlot) engine.fired
      else engine.fired := by
  by_cases scheduled : Scheduled schedule entry
  · have plain := scheduled
    unfold Scheduled at plain
    by_cases old : (entry.slot, entry.tickIdxInSlot) ∈ engine.fired
    · simp [scheduleCheck, plain, scheduled, old]
    · simp [scheduleCheck, plain, scheduled, old]
  · have plain := scheduled
    unfold Scheduled at plain
    simp [scheduleCheck, plain, scheduled]

theorem firings_scheduleCheck (slot tick : Nat) :
    firings slot tick (scheduleCheck engine schedule entry now).2 =
      if Scheduled schedule entry ∧ (entry.slot, entry.tickIdxInSlot) ∉ engine.fired ∧
        entry.slot = slot ∧ entry.tickIdxInSlot = tick then 1 else 0 := by
  by_cases scheduled : Scheduled schedule entry
  · have plain := scheduled
    unfold Scheduled at plain
    by_cases old : (entry.slot, entry.tickIdxInSlot) ∈ engine.fired
    · simp [scheduleCheck, plain, scheduled, old, firings, triggersOf]
    · cases uncertain : entry.tickUncertain <;>
        simp [scheduleCheck, plain, scheduled, old, firings, triggersOf, Message.trigger?,
          uncertain, List.countP_cons]
  · have plain := scheduled
    unfold Scheduled at plain
    simp [scheduleCheck, plain, scheduled, firings, triggersOf]

/-- A fired tick is remembered until an entry of a slot far ahead is handled. -/
theorem mem_compact_fired {key : Nat × Nat} :
    key ∈ (compact engine entry.slot).fired →
      key ∈ engine.fired := by
  unfold compact
  split
  · intro member
    exact (Finset.mem_filter.mp member).1
  · exact id

theorem mem_compact_of_mem {key : Nat × Nat} (member : key ∈ engine.fired)
    (near : entry.slot ≤ key.1 + firedWindowSlots) : key ∈ (compact engine entry.slot).fired := by
  unfold compact
  split
  · refine Finset.mem_filter.mpr ⟨member, ?_⟩
    show key.1 ≥ entry.slot - firedWindowSlots
    omega
  · exact member

theorem firings_handleEntry (slot tick : Nat) :
    firings slot tick (handleEntry engine schedule entry now).2 =
      if Scheduled schedule entry ∧ (entry.slot, entry.tickIdxInSlot) ∉ engine.fired ∧
        entry.slot = slot ∧ entry.tickIdxInSlot = tick then 1 else 0 := by
  have parts : (handleEntry engine schedule entry now).2 =
      [.fetchAdd .entriesSeen 1] ++
        ((scheduleCheck (recordEntryHash engine entry.slot entry.observation.entryHash) schedule
            entry now).2 ++
          (runAll (matchSignature entry now)
            (scheduleCheck (recordEntryHash engine entry.slot entry.observation.entryHash) schedule
              entry now).1 entry.observation.signatures).2) := rfl
  have silent : firings slot tick (runAll (matchSignature entry now)
      (scheduleCheck (recordEntryHash engine entry.slot entry.observation.entryHash) schedule
        entry now).1 entry.observation.signatures).2 = 0 := by
    rw [firings, (matching_frame _ entry now entry.observation.signatures).2.2.2]
    rfl
  have counted : firings slot tick [.fetchAdd .entriesSeen 1] = 0 := rfl
  rw [parts, firings_append, firings_append, silent, firings_scheduleCheck, counted, Nat.zero_add,
    Nat.add_zero]
  rfl

/-- The ticks fired before the compaction that ends the handling of an entry. -/
theorem mem_fired_handleEntry {key : Nat × Nat}
    (member : key ∈ (handleEntry engine schedule entry now).1.fired) :
    key ∈ engine.fired ∨
      (Scheduled schedule entry ∧ key = (entry.slot, entry.tickIdxInSlot)) := by
  have before := mem_compact_fired _ entry member
  rw [(matching_frame _ entry now entry.observation.signatures).1, scheduleCheck_fired] at before
  split at before
  · next scheduled =>
    rcases Finset.mem_insert.mp before with same | old
    · exact .inr ⟨scheduled, same⟩
    · exact .inl old
  · exact .inl before

theorem fired_handleEntry_of_mem {key : Nat × Nat} (near : entry.slot ≤ key.1 + firedWindowSlots)
    (member : key ∈ engine.fired ∨
      (Scheduled schedule entry ∧ key = (entry.slot, entry.tickIdxInSlot))) :
    key ∈ (handleEntry engine schedule entry now).1.fired := by
  refine mem_compact_of_mem _ entry ?_ near
  rw [(matching_frame _ entry now entry.observation.signatures).1, scheduleCheck_fired]
  rcases member with old | ⟨scheduled, rfl⟩
  · split
    · exact Finset.mem_insert_of_mem old
    · exact old
  · rw [if_pos scheduled]
    exact Finset.mem_insert_self _ _

end Parts

/-! ## What a trigger carries -/

/-- The id of a trigger is that of its slot and its tick. -/
def Packed (trigger : TriggerEvent) : Prop :=
  trigger.triggerId = .fromSlotTick trigger.slot trigger.tick

theorem packed_scheduleCheck (engine : State) (schedule : Finset (Nat × Nat))
    (entry : OrderedEntry) (now : Instant) :
    ∀ trigger ∈ triggersOf (scheduleCheck engine schedule entry now).2, Packed trigger := by
  intro trigger fired
  by_cases scheduled : Scheduled schedule entry
  · unfold Scheduled at scheduled
    by_cases old : (entry.slot, entry.tickIdxInSlot) ∈ engine.fired
    · simp [scheduleCheck, scheduled, old, triggersOf] at fired
    · cases uncertain : entry.tickUncertain <;>
        simp [scheduleCheck, scheduled, old, triggersOf, Message.trigger?, uncertain] at fired <;>
        simp [Packed, fired]
  · unfold Scheduled at scheduled
    simp [scheduleCheck, scheduled, triggersOf] at fired

theorem packed_step (engine : State) (input : Input) :
    ∀ trigger ∈ triggersOf (step engine input).2, Packed trigger := by
  intro trigger fired
  cases input with
  | insertPending signature => cases fired
  | receive event schedule now =>
    cases event with
    | missing | slotComplete | slotIncomplete => cases fired
    | entry e =>
      change trigger ∈ triggersOf ([.fetchAdd .entriesSeen 1] ++ (_ ++ _)) at fired
      rw [triggersOf_append, triggersOf_append,
        (matching_frame _ e now e.observation.signatures).2.2.2, List.append_nil] at fired
      exact packed_scheduleCheck _ schedule e now trigger fired

/-- **Every trigger carries the id of its slot and its tick.** -/
theorem packed_run (start : State) (inputs : List Input) :
    ∀ trigger ∈ triggersOf (run start inputs).2, Packed trigger := by
  induction inputs using List.reverseRecOn with
  | nil => exact fun trigger absent => by cases absent
  | append_singleton past input ih =>
    intro trigger fired
    rw [run, runAll_concat, triggersOf_append, List.mem_append] at fired
    rcases fired with old | new
    · exact ih trigger old
    · exact packed_step _ input trigger new

/-! ## Runs with a fixed schedule -/

/-- The entries among the inputs. -/
def entriesOf (inputs : List Input) : List OrderedEntry :=
  inputs.filterMap fun input => input.event?.bind OrderedEvent.ordered?

/-- Every entry is handled with the same schedule. -/
def FixedSchedule (schedule : Finset (Nat × Nat)) (inputs : List Input) : Prop :=
  ∀ event loaded now, Input.receive event loaded now ∈ inputs → loaded = schedule

/-- The trigger is fired for a scheduled entry and says how certain its tick is. -/
def FiredFor (schedule : Finset (Nat × Nat)) (entries : List OrderedEntry)
    (trigger : TriggerEvent) : Prop :=
  (trigger.slot, trigger.tick) ∈ schedule ∧ 0 < trigger.tick ∧
    ∃ e ∈ entries, e.slot = trigger.slot ∧ e.tickIdxInSlot = trigger.tick ∧
      e.tickUncertain = trigger.tickUncertain

theorem firedFor_scheduleCheck (engine : State) (schedule : Finset (Nat × Nat))
    (entry : OrderedEntry) (now : Instant) :
    ∀ trigger ∈ triggersOf (scheduleCheck engine schedule entry now).2,
      FiredFor schedule [entry] trigger := by
  intro trigger fired
  by_cases scheduled : entry.tickIdxInSlot > 0 ∧ (entry.slot, entry.tickIdxInSlot) ∈ schedule
  · have origin : trigger.slot = entry.slot ∧ trigger.tick = entry.tickIdxInSlot ∧
        trigger.tickUncertain = entry.tickUncertain := by
      by_cases old : (entry.slot, entry.tickIdxInSlot) ∈ engine.fired
      · simp [scheduleCheck, scheduled, old, triggersOf] at fired
      · cases uncertain : entry.tickUncertain <;>
          simp [scheduleCheck, scheduled, old, triggersOf, Message.trigger?, uncertain]
            at fired <;>
          simp [fired]
    obtain ⟨slot, tick, certainty⟩ := origin
    refine ⟨?_, ?_, entry, List.mem_singleton_self entry, slot.symm, tick.symm, certainty.symm⟩
    · rw [slot, tick]
      exact scheduled.2
    · rw [tick]
      exact scheduled.1
  · simp [scheduleCheck, scheduled, triggersOf] at fired

theorem firedFor_handleEntry (engine : State) (schedule : Finset (Nat × Nat))
    (entry : OrderedEntry) (now : Instant) :
    ∀ trigger ∈ triggersOf (handleEntry engine schedule entry now).2,
      FiredFor schedule [entry] trigger := by
  intro trigger fired
  change trigger ∈ triggersOf ([.fetchAdd .entriesSeen 1] ++ (_ ++ _)) at fired
  rw [triggersOf_append, triggersOf_append,
    (matching_frame _ entry now entry.observation.signatures).2.2.2, List.append_nil] at fired
  exact firedFor_scheduleCheck _ schedule entry now trigger fired

/-- **Every trigger of a run with one schedule is fired for a scheduled entry.** -/
theorem fired_from_entry {schedule : Finset (Nat × Nat)} (start : State) {inputs : List Input}
    (fixed : FixedSchedule schedule inputs) :
    ∀ trigger ∈ triggersOf (run start inputs).2, FiredFor schedule (entriesOf inputs) trigger := by
  have each : ∀ effect ∈ (run start inputs).2, ∀ trigger, effect = .trySend (.trigger trigger) →
      FiredFor schedule (entriesOf inputs) trigger := by
    refine (@runAll_outputs _ _ _ step (fun _ => True)
      (fun effect => ∀ trigger, effect = .trySend (.trigger trigger) →
        FiredFor schedule (entriesOf inputs) trigger) inputs ?_ start trivial).2
    intro engine _ input member
    refine ⟨trivial, ?_⟩
    rintro effect caused trigger rfl
    have fired : trigger ∈ triggersOf (step engine input).2 :=
      List.mem_filterMap.mpr ⟨_, mem_sent.mpr caused, rfl⟩
    cases input with
    | insertPending signature => cases fired
    | receive event loaded now =>
      cases event with
      | missing | slotComplete | slotIncomplete => cases fired
      | entry e =>
        have same : loaded = schedule := fixed _ loaded now member
        subst same
        obtain ⟨listed, positive, other, here, rest⟩ :=
          firedFor_handleEntry _ loaded e now trigger fired
        refine ⟨listed, positive, other, ?_, rest⟩
        rw [List.mem_singleton.mp here]
        exact List.mem_filterMap.mpr ⟨_, member, rfl⟩
  intro trigger fired
  obtain ⟨message, offered, isTrigger⟩ := List.mem_filterMap.mp fired
  cases message with
  | matched => cases isTrigger
  | trigger own =>
    cases isTrigger
    exact each _ (mem_sent.mp offered) _ rfl

/-- An entry of the slot does not come after an entry of a slot so far ahead that
the fired ticks of the slot were forgotten. -/
def WithinWindow (slot : Nat) (before : List OrderedEntry) (entry : OrderedEntry) : Prop :=
  entry.slot = slot → ∀ earlier ∈ before, earlier.slot ≤ slot + firedWindowSlots

/-- What the firings of one scheduled tick are in a run. -/
structure FiringState (slot tick : Nat) (entries : List OrderedEntry) (engine : State)
    (count : Nat) : Prop where
  unseen : (∀ e ∈ entries, ¬ (e.slot = slot ∧ e.tickIdxInSlot = tick)) →
    count = 0 ∧ (slot, tick) ∉ engine.fired
  seen : (∃ e ∈ entries, e.slot = slot ∧ e.tickIdxInSlot = tick) → 1 ≤ count
  once : EachAfter (WithinWindow slot) entries →
    (∃ e ∈ entries, e.slot = slot ∧ e.tickIdxInSlot = tick) →
      count = 1 ∧ ((slot, tick) ∈ engine.fired ∨
        ∃ e ∈ entries, slot + firedWindowSlots < e.slot)

section Account

variable {slot tick : Nat} {entries : List OrderedEntry} {engine : State} {count : Nat}
  {schedule : Finset (Nat × Nat)}

/-- An entry that carries the tick fires it, unless it was fired before. -/
theorem FiringState.own (account : FiringState slot tick entries engine count)
    {entry : OrderedEntry} (hit : entry.slot = slot ∧ entry.tickIdxInSlot = tick)
    (due : Scheduled schedule entry) (now : Instant) :
    FiringState slot tick (entries ++ [entry])
      (TriggerEngine.handleEntry engine schedule entry now).1
      (count + if (slot, tick) ∉ engine.fired then 1 else 0) := by
  obtain ⟨rfl, rfl⟩ := hit
  have kept : (entry.slot, entry.tickIdxInSlot) ∈
      (TriggerEngine.handleEntry engine schedule entry now).1.fired :=
    fired_handleEntry_of_mem engine schedule entry now (Nat.le_add_right _ _) (.inr ⟨due, rfl⟩)
  refine ⟨?_, ?_, ?_⟩
  · intro none
    exact absurd ⟨rfl, rfl⟩ (none entry (by simp))
  · intro _
    by_cases before : ∃ e ∈ entries, e.slot = entry.slot ∧ e.tickIdxInSlot = entry.tickIdxInSlot
    · exact Nat.le_add_right_of_le (account.seen before)
    · have fresh := (account.unseen fun e member same => before ⟨e, member, same⟩).2
      simp [fresh]
  · intro window _
    rw [eachAfter_concat] at window
    refine ⟨?_, .inl kept⟩
    by_cases before : ∃ e ∈ entries, e.slot = entry.slot ∧ e.tickIdxInSlot = entry.tickIdxInSlot
    · obtain ⟨single, remembered⟩ := account.once window.1 before
      have held : (entry.slot, entry.tickIdxInSlot) ∈ engine.fired := by
        rcases remembered with held | ⟨far, member, ahead⟩
        · exact held
        · have near := window.2 rfl far member
          omega
      simp [held, single]
    · obtain ⟨none, fresh⟩ := account.unseen fun e member same => before ⟨e, member, same⟩
      simp [fresh, none]

/-- Any other entry fires nothing of the tick, and may make the engine forget it. -/
theorem FiringState.other (account : FiringState slot tick entries engine count)
    {entry : OrderedEntry} (apart : ¬ (entry.slot = slot ∧ entry.tickIdxInSlot = tick))
    (now : Instant) :
    FiringState slot tick (entries ++ [entry])
      (TriggerEngine.handleEntry engine schedule entry now).1 count := by
  have older : (∃ e ∈ entries ++ [entry], e.slot = slot ∧ e.tickIdxInSlot = tick) →
      ∃ e ∈ entries, e.slot = slot ∧ e.tickIdxInSlot = tick := by
    rintro ⟨e, member, same⟩
    rcases List.mem_append.mp member with old | new
    · exact ⟨e, old, same⟩
    · rw [List.mem_singleton.mp new] at same
      exact absurd same apart
  refine ⟨?_, fun some? => account.seen (older some?), ?_⟩
  · intro none
    obtain ⟨zero, fresh⟩ := account.unseen fun e member => none e (List.mem_append_left _ member)
    refine ⟨zero, fun member => ?_⟩
    rcases mem_fired_handleEntry engine schedule entry now member with old | ⟨_, same⟩
    · exact fresh old
    · exact apart ⟨(Prod.mk.inj same).1.symm, (Prod.mk.inj same).2.symm⟩
  · intro window some?
    obtain ⟨single, remembered⟩ := account.once (eachAfter_concat.mp window).1 (older some?)
    refine ⟨single, ?_⟩
    rcases remembered with held | ⟨far, member, ahead⟩
    · by_cases near : entry.slot ≤ slot + firedWindowSlots
      · exact .inl (fired_handleEntry_of_mem engine schedule entry now near (.inl held))
      · exact .inr ⟨entry, by simp, by omega⟩
    · exact .inr ⟨far, List.mem_append_left _ member, ahead⟩

/-- **The handling of an entry keeps the account of a scheduled tick.** -/
theorem FiringState.handleEntry (account : FiringState slot tick entries engine count)
    (positive : 0 < tick) (scheduled : (slot, tick) ∈ schedule) (entry : OrderedEntry)
    (now : Instant) :
    FiringState slot tick (entries ++ [entry])
      (TriggerEngine.handleEntry engine schedule entry now).1
      (count + firings slot tick (TriggerEngine.handleEntry engine schedule entry now).2) := by
  rw [firings_handleEntry]
  by_cases hit : entry.slot = slot ∧ entry.tickIdxInSlot = tick
  · have due : Scheduled schedule entry := by
      rw [Scheduled, hit.1, hit.2]
      exact ⟨positive, scheduled⟩
    have fires : (Scheduled schedule entry ∧ (entry.slot, entry.tickIdxInSlot) ∉ engine.fired ∧
        entry.slot = slot ∧ entry.tickIdxInSlot = tick) ↔ (slot, tick) ∉ engine.fired := by
      simp [due, hit.1, hit.2]
    rw [if_congr fires rfl rfl]
    exact account.own hit due now
  · rw [if_neg fun all => hit all.2.2, Nat.add_zero]
    exact account.other hit now

end Account

/-- **The account of a scheduled tick holds in every run with that schedule.** -/
theorem firingState_run {slot tick : Nat} {schedule : Finset (Nat × Nat)} (positive : 0 < tick)
    (scheduled : (slot, tick) ∈ schedule) (start : State) (fresh : start.fired = ∅)
    (inputs : List Input) (fixed : FixedSchedule schedule inputs) :
    FiringState slot tick (entriesOf inputs) (run start inputs).1
      (firings slot tick (run start inputs).2) := by
  induction inputs using List.reverseRecOn with
  | nil =>
    refine ⟨fun _ => ⟨rfl, by simp [run, fresh]⟩, ?_, ?_⟩
    · rintro ⟨e, member, _⟩
      cases member
    · rintro _ ⟨e, member, _⟩
      cases member
  | append_singleton past input ih =>
    have earlier := ih fun event loaded now member =>
      fixed event loaded now (List.mem_append_left _ member)
    have stepped : run start (past ++ [input]) =
        ((step (run start past).1 input).1,
          (run start past).2 ++ (step (run start past).1 input).2) :=
      runAll_concat _ _ _ _
    rw [stepped, firings_append]
    have grown : entriesOf (past ++ [input]) =
        entriesOf past ++ (input.event?.bind OrderedEvent.ordered?).toList := by
      unfold entriesOf
      rw [List.filterMap_append]
      cases found : input.event?.bind OrderedEvent.ordered? <;> simp [found]
    rw [grown]
    cases input with
    | insertPending signature =>
      obtain ⟨unseen, seen, once⟩ := earlier
      simp only [Input.event?, Option.bind_none, Option.toList_none, List.append_nil]
      exact ⟨unseen, seen, once⟩
    | receive event loaded now =>
      have same : loaded = schedule := fixed event loaded now (by simp)
      subst same
      cases event with
      | entry e => exact earlier.handleEntry positive scheduled e now
      | missing m =>
        simp only [Input.event?, OrderedEvent.ordered?, Option.bind_some, Option.toList_none,
          List.append_nil]
        exact earlier
      | slotComplete c =>
        simp only [Input.event?, OrderedEvent.ordered?, Option.bind_some, Option.toList_none,
          List.append_nil]
        exact ⟨earlier.unseen, earlier.seen, earlier.once⟩
      | slotIncomplete i =>
        simp only [Input.event?, OrderedEvent.ordered?, Option.bind_some, Option.toList_none,
          List.append_nil]
        exact ⟨earlier.unseen, earlier.seen, earlier.once⟩

end SenderAnalysis.TriggerEngine

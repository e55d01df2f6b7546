import SenderAnalysis.Foundations.Traces
import SenderAnalysis.FanOut.PohSupervisor.SlotView

/-!
# The incarnations of a slot

In a run of the supervisor the state of a slot is created by an arrival, lives
through the inputs that reach it, and is dropped in phase C of a sweep. The next
arrival creates it anew. The history of a slot lists these incarnations, each with
the inputs that reached it.

Nothing is lost in this view (`tracked_run`): the state the supervisor holds for a
slot is the state its current incarnation leads to, the events about the slot are
the events of its incarnations, one after the other, and an incarnation that was
dropped was sealed.
-/

set_option autoImplicit false

namespace SenderAnalysis.PohSupervisor

open Std OrderedMap

/-! ## Histories -/

/-- The incarnations of a slot: those that were dropped, the oldest first, and the
one that is held. -/
structure History where
  dropped : List (List SlotInput) := []
  current : Option (List SlotInput) := none
deriving DecidableEq, Repr

namespace History

/-- All incarnations, the oldest first. -/
def incarnations (history : History) : List (List SlotInput) :=
  history.dropped ++ history.current.toList

/-- An arrival reaches the incarnation that is held, or creates one. -/
def arrive (history : History) (input : SlotInput) : History :=
  { history with current := some (history.current.getD [] ++ [input]) }

/-- Inputs reach the incarnation that is held. -/
def reach (history : History) (inputs : List SlotInput) : History :=
  { history with current := history.current.map (· ++ inputs) }

/-- The incarnation that is held is dropped. -/
def drop (history : History) : History :=
  { dropped := history.dropped ++ history.current.toList, current := none }

end History

/-- What a sweep adds to the history of a slot. -/
def sweepHistory (cfg : Config) (slotKey : Nat) (state : State) (now : Instant)
    (history : History) : History :=
  let reached := history.reach (sweepInputs cfg now state.maxSlot slotKey)
  if (sweep cfg state now).1.slots.contains slotKey then reached else reached.drop

/-- What an input adds to the history of a slot. -/
def historyStep (cfg : Config) (slotKey : Nat) (state : State) (history : History) :
    Input → History
  | .receive merged now =>
      if merged.observation.slot = slotKey then history.arrive (.arrive merged now) else history
  | .sweep now => sweepHistory cfg slotKey state now history
  | .shutdown now => (sweepHistory cfg slotKey state now history).reach [.sealing now]

/-- The history of a slot in a run from a state. -/
def historyFrom (cfg : Config) (slotKey : Nat) : State → History → List Input → History
  | _, history, [] => history
  | state, history, input :: rest =>
      historyFrom cfg slotKey (step cfg state input).1 (historyStep cfg slotKey state history input)
        rest

/-- The history of a slot in a run. -/
def history (cfg : Config) (slotKey : Nat) (inputs : List Input) : History :=
  historyFrom cfg slotKey {} {} inputs

theorem historyFrom_concat (cfg : Config) (slotKey : Nat) (state : State) (past : History)
    (inputs : List Input) (input : Input) :
    historyFrom cfg slotKey state past (inputs ++ [input]) =
      historyStep cfg slotKey (runAll (step cfg) state inputs).1
        (historyFrom cfg slotKey state past inputs) input := by
  induction inputs generalizing state past with
  | nil => rfl
  | cons head rest ih =>
    rw [List.cons_append, historyFrom, ih, historyFrom, runAll_cons]

theorem history_concat (cfg : Config) (slotKey : Nat) (inputs : List Input) (input : Input) :
    history cfg slotKey (inputs ++ [input]) =
      historyStep cfg slotKey (run cfg inputs).1 (history cfg slotKey inputs) input :=
  historyFrom_concat cfg slotKey {} {} inputs input

/-! ## The history accounts for the slot -/

/-- The events of an incarnation. -/
def incarnationEvents (cfg : Config) (slotKey : Nat) (inputs : List SlotInput) :
    List OrderedEvent :=
  sent (slotRun cfg slotKey inputs).2

/-- The entries of a trace. -/
def emittedEntries (events : List OrderedEvent) : List OrderedEntry :=
  events.filterMap OrderedEvent.ordered?

@[simp] theorem emittedEntries_append (first second : List OrderedEvent) :
    emittedEntries (first ++ second) = emittedEntries first ++ emittedEntries second :=
  List.filterMap_append

theorem mem_emittedEntries {events : List OrderedEvent} {e : OrderedEntry} :
    e ∈ emittedEntries events ↔ OrderedEvent.entry e ∈ events := by
  unfold emittedEntries
  rw [List.mem_filterMap]
  constructor
  · rintro ⟨event, member, same⟩
    cases event <;> cases same
    exact member
  · intro member
    exact ⟨_, member, rfl⟩

/-- An incarnation begins with an arrival, and all its arrivals are of its slot. -/
structure Incarnation (slotKey : Nat) (inputs : List SlotInput) : Prop where
  begun : ∃ merged now rest, inputs = .arrive merged now :: rest
  belong : ∀ input ∈ inputs, input.BelongsTo slotKey

theorem Incarnation.extend {slotKey : Nat} {own more : List SlotInput}
    (incarnation : Incarnation slotKey own) (belong : ∀ input ∈ more, input.BelongsTo slotKey) :
    Incarnation slotKey (own ++ more) := by
  obtain ⟨merged, now, rest, same⟩ := incarnation.begun
  refine ⟨⟨merged, now, rest ++ more, by simp [same]⟩, ?_⟩
  intro input member
  rcases List.mem_append.mp member with before | later
  · exact incarnation.belong input before
  · exact belong input later

/-- What a history says about the state held for a slot and the events of the
slot. -/
structure Tracked (cfg : Config) (slotKey : Nat) (found : Option PohSlot)
    (events : List OrderedEvent) (history : History) : Prop where
  held : found = history.current.map fun own => (slotRun cfg slotKey own).1
  emitted : events = history.incarnations.flatMap (incarnationEvents cfg slotKey)
  proper : ∀ own ∈ history.incarnations, Incarnation slotKey own
  ended : ∀ own ∈ history.dropped, (slotRun cfg slotKey own).1.isSealed = true

theorem slotRun_append (cfg : Config) (slotKey : Nat) (own more : List SlotInput) :
    slotRun cfg slotKey (own ++ more) =
      ((runAll (slotStep cfg slotKey) (slotRun cfg slotKey own).1 more).1,
        (slotRun cfg slotKey own).2 ++
          (runAll (slotStep cfg slotKey) (slotRun cfg slotKey own).1 more).2) :=
  runAll_append _ _ _ _

theorem incarnationEvents_append (cfg : Config) (slotKey : Nat) (own more : List SlotInput) :
    incarnationEvents cfg slotKey (own ++ more) =
      incarnationEvents cfg slotKey own ++
        sent (runAll (slotStep cfg slotKey) (slotRun cfg slotKey own).1 more).2 := by
  simp [incarnationEvents, slotRun_append]

section Accounts

variable {cfg : Config} {slotKey : Nat} {found : Option PohSlot} {events : List OrderedEvent}
  {history : History}

theorem Tracked.created : Tracked cfg slotKey none [] {} :=
  ⟨rfl, rfl, by simp [History.incarnations], by simp⟩

theorem Tracked.arrive (tracked : Tracked cfg slotKey found events history) {merged : MergedEntry}
    {now : Instant} (belongs : merged.observation.slot = slotKey) :
    Tracked cfg slotKey (some (slotStep cfg slotKey (found.getD {}) (.arrive merged now)).1)
      (events ++ sent (slotStep cfg slotKey (found.getD {}) (.arrive merged now)).2)
      (history.arrive (.arrive merged now)) := by
  have before : found.getD {} = (slotRun cfg slotKey (history.current.getD [])).1 := by
    rw [tracked.held]
    cases history.current <;> rfl
  have own : (SlotInput.arrive merged now).BelongsTo slotKey := by
    rintro _ _ ⟨⟩
    exact belongs
  refine ⟨?_, ?_, ?_, tracked.ended⟩
  · rw [before]
    simp [History.arrive, slotRun_concat]
  · rw [tracked.emitted, before]
    cases held : history.current with
    | none =>
      simp [History.incarnations, History.arrive, held, incarnationEvents, slotRun, runAll_cons]
    | some earlier =>
      simp [History.incarnations, History.arrive, held, incarnationEvents_append, runAll_cons]
  · intro last member
    rcases List.mem_append.mp member with old | new
    · exact tracked.proper last (List.mem_append_left _ old)
    · have same : last = history.current.getD [] ++ [.arrive merged now] := by
        simpa [History.arrive] using new
      cases held : history.current with
      | none =>
        refine ⟨⟨merged, now, [], by simp [same, held]⟩, ?_⟩
        simpa [same, held] using own
      | some earlier =>
        have proper := tracked.proper earlier (by simp [History.incarnations, held])
        rw [same, held]
        exact proper.extend (by simpa using own)

theorem Tracked.reach (tracked : Tracked cfg slotKey found events history)
    {inputs : List SlotInput} (belong : ∀ input ∈ inputs, input.BelongsTo slotKey) :
    Tracked cfg slotKey (found.map fun slot => (runAll (slotStep cfg slotKey) slot inputs).1)
      (events ++ (found.map fun slot =>
        sent (runAll (slotStep cfg slotKey) slot inputs).2).getD [])
      (history.reach inputs) := by
  refine ⟨?_, ?_, ?_, tracked.ended⟩
  · rw [tracked.held]
    cases held : history.current <;> simp [History.reach, held, slotRun_append]
  · rw [tracked.emitted, tracked.held]
    cases held : history.current <;>
      simp [History.incarnations, History.reach, held, incarnationEvents_append]
  · intro last member
    rcases List.mem_append.mp member with old | new
    · exact tracked.proper last (List.mem_append_left _ old)
    · cases held : history.current with
      | none => simp [History.reach, held] at new
      | some earlier =>
        have same : last = earlier ++ inputs := by simpa [History.reach, held] using new
        rw [same]
        exact (tracked.proper earlier (by simp [History.incarnations, held])).extend belong

theorem Tracked.drop (tracked : Tracked cfg slotKey found events history)
    (sealing : ∀ slot, found = some slot → slot.isSealed = true) :
    Tracked cfg slotKey none events history.drop := by
  have same : history.drop.incarnations = history.incarnations := by
    simp [History.drop, History.incarnations]
  refine ⟨rfl, by rw [same]; exact tracked.emitted, by rw [same]; exact tracked.proper, ?_⟩
  intro own member
  rcases List.mem_append.mp member with old | last
  · exact tracked.ended own old
  · refine sealing _ ?_
    rw [Option.mem_toList] at last
    rw [tracked.held, last]
    rfl

variable {state : State}

theorem Tracked.afterSweep (tracked : Tracked cfg slotKey state.slots[slotKey]? events history)
    (settled : AllSettled state.slots) (now : Instant) :
    Tracked cfg slotKey (sweep cfg state now).1.slots[slotKey]?
      (events ++ eventsAt slotKey (sweep cfg state now).2)
      (sweepHistory cfg slotKey state now history) := by
  have reached := tracked.reach fun input => sweepInputs_belongTo cfg now state.maxSlot slotKey
  rw [eventsAt_sweep cfg state slotKey settled now]
  have stepped := sweep_getElem? cfg state slotKey now
  unfold sweepHistory
  split
  · next present =>
    -- The slot survives phase C.
    have member := ExtTreeMap.mem_iff_isSome_getElem?.mp (ExtTreeMap.contains_iff_mem.mp present)
    obtain ⟨slot, found⟩ := Option.isSome_iff_exists.mp member
    have survived := stepped.symm.trans found
    rw [Option.filter_eq_some_iff] at survived
    rw [found, ← survived.1]
    exact reached
  · next absent =>
    have missing : (sweep cfg state now).1.slots[slotKey]? = none :=
      ExtTreeMap.getElem?_eq_none fun member => absent (ExtTreeMap.contains_iff_mem.mpr member)
    rw [missing]
    refine reached.drop ?_
    intro slot found
    rw [found, missing] at stepped
    have dropped := (Option.filter_eq_none_iff.mp stepped.symm) slot rfl
    simp only [kept, Bool.or_eq_true, Bool.not_eq_true', not_or, Bool.not_eq_false] at dropped
    exact dropped.2

theorem Tracked.afterInput (tracked : Tracked cfg slotKey state.slots[slotKey]? events history)
    (settled : AllSettled state.slots) (input : Input) :
    Tracked cfg slotKey (step cfg state input).1.slots[slotKey]?
      (events ++ eventsAt slotKey (step cfg state input).2)
      (historyStep cfg slotKey state history input) := by
  cases input with
  | receive merged now =>
    simp only [step, historyStep, receive_getElem?,
      eventsAt_receive cfg state slotKey settled]
    split
    · next same => exact tracked.arrive same
    · simpa using tracked
  | sweep now => exact tracked.afterSweep settled now
  | shutdown now =>
    have swept := tracked.afterSweep settled now
    have alone : ∀ input ∈ [SlotInput.sealing now], input.BelongsTo slotKey := by
      simpa using belongsTo_sealing slotKey now
    have ended := swept.reach alone
    simp only [step, historyStep, shutdown_getElem?, eventsAt_shutdown cfg state slotKey settled,
      ← List.append_assoc]
    simpa [runAll_cons] using ended

end Accounts

/-- **The history of a slot accounts for what the supervisor holds for the slot
and for the events about it, in every run.** -/
theorem tracked_run (cfg : Config) (slotKey : Nat) (inputs : List Input) :
    Tracked cfg slotKey (run cfg inputs).1.slots[slotKey]? (eventsAt slotKey (run cfg inputs).2)
      (history cfg slotKey inputs) := by
  induction inputs using List.reverseRecOn with
  | nil => exact .created
  | append_singleton past input ih =>
    have continued := ih.afterInput (run_settled cfg past) input
    rw [history_concat, run, runAll_concat, eventsAt_append]
    exact continued

/-- The incarnations of a slot in a run. -/
def incarnations (cfg : Config) (slotKey : Nat) (inputs : List Input) : List (List SlotInput) :=
  (history cfg slotKey inputs).incarnations

/-- The state an arrival of the slot finds. -/
def stateFound (cfg : Config) (slotKey : Nat) (past : List Input) : PohSlot :=
  (run cfg past).1.slots[slotKey]?.getD {}

/-- An arrival finds the state its incarnation has led to. -/
theorem stateFound_eq {cfg : Config} {slotKey : Nat} {past : List Input} :
    stateFound cfg slotKey past =
      (slotRun cfg slotKey ((history cfg slotKey past).current.getD [])).1 := by
  rw [stateFound, (tracked_run cfg slotKey past).held]
  cases (history cfg slotKey past).current <;> rfl

/-! ## The arrivals of the incarnations are the arrivals of the run -/

/-- The entry received for a slot. -/
def Input.arrivalAt? (slotKey : Nat) : Input → Option MergedEntry
  | .receive merged _ => if merged.observation.slot = slotKey then some merged else none
  | .sweep _ | .shutdown _ => none

/-- The entries that reached the incarnations, in order. -/
def History.arrivals (history : History) : List MergedEntry :=
  history.incarnations.flatten.filterMap SlotInput.arrival?

theorem History.arrivals_arrive (history : History) (merged : MergedEntry) (now : Instant) :
    (history.arrive (.arrive merged now)).arrivals = history.arrivals ++ [merged] := by
  cases held : history.current <;>
    simp [arrivals, incarnations, arrive, held, SlotInput.arrival?, List.filterMap_append]

theorem History.arrivals_reach (history : History) {inputs : List SlotInput}
    (silent : inputs.filterMap SlotInput.arrival? = []) :
    (history.reach inputs).arrivals = history.arrivals := by
  cases held : history.current <;>
    simp [arrivals, incarnations, reach, held, List.filterMap_append, silent]

theorem History.arrivals_drop (history : History) : history.drop.arrivals = history.arrivals := by
  simp [arrivals, incarnations, drop]

theorem sweepInputs_silent (cfg : Config) (now : Instant) (maxSlot slotKey : Nat) :
    (sweepInputs cfg now maxSlot slotKey).filterMap SlotInput.arrival? = [] := by
  unfold sweepInputs
  split <;> rfl

theorem arrivals_sweepHistory (cfg : Config) (slotKey : Nat) (state : State) (now : Instant)
    (history : History) :
    (sweepHistory cfg slotKey state now history).arrivals = history.arrivals := by
  have reached := history.arrivals_reach (sweepInputs_silent cfg now state.maxSlot slotKey)
  simp only [sweepHistory]
  split
  · exact reached
  · rw [History.arrivals_drop, reached]

/-- **The incarnations of a slot receive the entries of the run that are of the
slot, in the same order.** -/
theorem arrivals_history (cfg : Config) (slotKey : Nat) (inputs : List Input) :
    (history cfg slotKey inputs).arrivals = inputs.filterMap (Input.arrivalAt? slotKey) := by
  induction inputs using List.reverseRecOn with
  | nil => rfl
  | append_singleton past input ih =>
    rw [history_concat, List.filterMap_append, ← ih]
    cases input with
    | receive merged now =>
      by_cases same : merged.observation.slot = slotKey
      · simp [historyStep, same, History.arrivals_arrive, Input.arrivalAt?]
      · simp [historyStep, same, Input.arrivalAt?]
    | sweep now => simp [historyStep, arrivals_sweepHistory, Input.arrivalAt?]
    | shutdown now =>
      have silent : [SlotInput.sealing now].filterMap SlotInput.arrival? = [] := rfl
      simp [historyStep, History.arrivals_reach _ silent, arrivals_sweepHistory, Input.arrivalAt?]

/-- The inputs of a sweep bring no entry. -/
theorem arrival?_of_sweepInputs {cfg : Config} {now : Instant} {maxSlot slotKey : Nat}
    {input : SlotInput} (member : input ∈ sweepInputs cfg now maxSlot slotKey) :
    input.arrival? = none := by
  cases arrival : input.arrival? with
  | none => rfl
  | some merged =>
    have listed := List.mem_filterMap.mpr ⟨input, member, arrival⟩
    rw [sweepInputs_silent] at listed
    cases listed

/-- What holds of an arrival and the incarnation it reaches holds throughout every
incarnation, when the inputs that bring no entry always satisfy it. -/
theorem incarnations_eachAfter {cfg : Config} {slotKey : Nat}
    {holds : List SlotInput → SlotInput → Prop}
    (silent : ∀ past input, input.arrival? = none → holds past input) {inputs : List Input}
    (arrivals : EachAfter (fun past input => ∀ merged now, input = .receive merged now →
      merged.observation.slot = slotKey →
      holds ((history cfg slotKey past).current.getD []) (.arrive merged now)) inputs) :
    ∀ own ∈ incarnations cfg slotKey inputs, EachAfter holds own := by
  unfold incarnations
  induction inputs using List.reverseRecOn with
  | nil => simp [history, historyFrom, History.incarnations]
  | append_singleton past input ih =>
    rw [eachAfter_concat] at arrivals
    have earlier := ih arrivals.1
    -- Inputs without an entry extend the incarnation that is held.
    have reached : ∀ (before : History) (more : List SlotInput),
        (∀ own ∈ before.incarnations, EachAfter holds own) →
        (∀ input ∈ more, input.arrival? = none) →
        ∀ own ∈ (before.reach more).incarnations, EachAfter holds own := by
      intro before more each none own member
      rcases List.mem_append.mp member with old | new
      · exact each own (List.mem_append_left _ old)
      · cases held : before.current with
        | none => simp [History.reach, held] at new
        | some current =>
          have same : own = current ++ more := by simpa [History.reach, held] using new
          rw [same]
          exact (each current (by simp [History.incarnations, held])).append
            fun input listed past => silent past input (none input listed)
    have swept : ∀ now, ∀ own ∈ (sweepHistory cfg slotKey (run cfg past).1 now
        (history cfg slotKey past)).incarnations, EachAfter holds own := by
      intro now
      have each := reached _ _ earlier fun input member =>
        @arrival?_of_sweepInputs cfg now (run cfg past).1.maxSlot slotKey input member
      simp only [sweepHistory]
      split
      · exact each
      · simpa [History.drop, History.incarnations] using each
    rw [history_concat]
    cases input with
    | sweep now => exact swept now
    | shutdown now => exact reached _ _ (swept now) (by simp [SlotInput.arrival?])
    | receive merged now =>
      simp only [historyStep]
      split
      · next same =>
        intro own member
        rcases List.mem_append.mp member with old | new
        · exact earlier own (List.mem_append_left _ old)
        · have last : own = (history cfg slotKey past).current.getD [] ++ [.arrive merged now] := by
            simpa [History.arrive] using new
          rw [last, eachAfter_concat]
          refine ⟨?_, arrivals.2 merged now rfl same⟩
          cases held : (history cfg slotKey past).current with
          | none => exact eachAfter_nil _
          | some current => exact earlier current (by simp [History.incarnations, held])
      · exact earlier

/-- An entry that reached an incarnation was received. -/
theorem received_of_incarnation {cfg : Config} {slotKey : Nat} {inputs : List Input}
    {own : List SlotInput} (member : own ∈ incarnations cfg slotKey inputs)
    {merged : MergedEntry} {now : Instant} (arrival : .arrive merged now ∈ own) :
    ∃ received, Input.receive merged received ∈ inputs := by
  have listed : merged ∈ (history cfg slotKey inputs).arrivals := by
    refine List.mem_filterMap.mpr ⟨.arrive merged now, ?_, rfl⟩
    exact List.mem_flatten.mpr ⟨own, member, arrival⟩
  rw [arrivals_history] at listed
  obtain ⟨input, present, same⟩ := List.mem_filterMap.mp listed
  cases input with
  | receive other received =>
    simp only [Input.arrivalAt?] at same
    split at same
    · cases same
      exact ⟨received, present⟩
    · cases same
  | sweep now => cases same
  | shutdown now => cases same

end SenderAnalysis.PohSupervisor

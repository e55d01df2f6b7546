import SenderAnalysis.FanOut.Recorder.Conservation
import SenderAnalysis.Foundations.SelectLoops

/-!
# The recorder at shutdown

The recorder looks at the stop flag at the start of each round and leaves its loop when
it is set, whatever waits in its channels. The last flush covers the attempts it holds.
So a registration that waits when the flag is set gets its row only if the select of the
round under way takes it, and a match that waits counts only if it is the event this
round takes (`shutdown_losesNothing_iff`).
-/

set_option autoImplicit false

namespace SenderAnalysis.Recorder

open SelectLoop (Act)

variable {cfg : Config} {key : AttemptKey} {sig : Signature}

/-! ## The thread -/

/-- The channels of the recorder. -/
inductive Channel where
  | register
  | send
  | matched
deriving DecidableEq, Repr

/-- An event of one of the channels. -/
inductive Event where
  | register (reg : RegisterEvent)
  | send (s : SendEvent)
  | matched (m : MatchEvent)
deriving DecidableEq, Repr

def Event.channel : Event → Channel
  | register _ => .register
  | send _ => .send
  | matched _ => .matched

/-- What the recorder reads when it takes an event or sweeps. -/
structure Reading where
  cache : Option SlotHashCache
  now : Instant

/-- What a round of the loop gives to the handlers. -/
def toInput : Taken Event Reading → Input
  | .event (.register reg) _ => .register reg
  | .event (.send s) _ => .send s
  | .event (.matched m) reading => .matched m reading.cache reading.now
  | .sweep reading => .sweep reading.now

/-- The recorder's thread: it heeds the stop flag at once, and goes on when a channel is
closed. -/
def thread (cfg : Config) : SelectLoop State Channel Event Reading RecorderEffect where
  initial := {}
  channelOf := Event.channel
  handle recorder taken := step cfg recorder (toInput taken)
  mayStop _ := true
  hangsUp _ := false

/-- The inputs the handlers are given in a run of the thread. -/
def handled (cfg : Config) (acts : List (Act Channel Event Reading)) : List Input :=
  ((thread cfg).run acts).2.map toInput

theorem thread_state (acts : List (Act Channel Event Reading)) :
    ((thread cfg).run acts).1.state = (runAll (step cfg) {} (handled cfg acts)).1 := by
  rw [SelectLoop.run_state, handled, ← runAll_map]
  rfl

def Event.register? : Event → Option RegisterEvent
  | register reg => some reg
  | send _ | matched _ => none

/-- The registrations among events. -/
def eventRegistrations (events : List Event) : List RegisterEvent :=
  events.filterMap Event.register?

theorem mem_eventRegistrations {events : List Event} {reg : RegisterEvent} :
    reg ∈ eventRegistrations events ↔ .register reg ∈ events := by
  rw [eventRegistrations, List.mem_filterMap]
  constructor
  · rintro ⟨event, member, registers⟩
    cases event with
    | register other => simpa [← Option.some.inj registers] using member
    | send | matched => cases registers
  · exact fun member => ⟨_, member, rfl⟩

theorem registrations_map_toInput (taken : List (Taken Event Reading)) :
    registrations (taken.map toInput) = eventRegistrations (Taken.events taken) := by
  rw [registrations, List.filterMap_map, eventRegistrations, Taken.events,
    List.filterMap_filterMap]
  congr 1
  funext given
  cases given with
  | event event reading => cases event <;> rfl
  | sweep reading => rfl

/-! ## Rows of one attempt -/

/-- An attempt that is not registered has no row. -/
theorem ownRecords_unregistered {inputs : List Input}
    (unregistered : ∀ other ∈ registrations inputs, keyOf other ≠ key ∧ other.signature ≠ sig) :
    ownRecords key (runLoop cfg inputs).2 = [] := by
  have identifies : ∀ input ∈ inputs, Identifies key sig input := by
    intro input member
    cases input with
    | register other =>
      have apart := unregistered other (mem_registrations.mpr member)
      simp [Identifies, apart.1, apart.2]
    | send | matched | sweep => trivial
  have closed : runAll (attemptStep cfg key sig) none inputs = (none, []) :=
    runAll_attemptStep_closed fun other member =>
      (unregistered other (mem_registrations.mpr member)).1
  rw [runLoop_attempt identifies, attemptRows, closed]
  rfl

theorem rowOf_outcome {att : TriggerAttempt} {outcome : FinalOutcome} {row : TriggerRecord}
    (member : row ∈ rowOf cfg att outcome) : row.finalOutcome = outcome := by
  obtain ⟨reg, _, rfl⟩ := by simpa [rowOf] using member
  rfl

/-- Some row shows that the attempt landed. -/
def ShowsLanded (rows : List TriggerRecord) : Prop := ∃ row ∈ rows, row.finalOutcome = .landed

instance (rows : List TriggerRecord) : Decidable (ShowsLanded rows) :=
  inferInstanceAs (Decidable (∃ row ∈ rows, _))

theorem showsLanded_append {first second : List TriggerRecord} :
    ShowsLanded (first ++ second) ↔ ShowsLanded first ∨ ShowsLanded second := by
  simp only [ShowsLanded, List.mem_append, or_and_right, exists_or]

theorem not_showsLanded_nil : ¬ ShowsLanded [] := by simp [ShowsLanded]

theorem not_showsLanded_flush (att : Option TriggerAttempt) :
    ¬ ShowsLanded (attemptFlush cfg att) := by
  rintro ⟨row, member, landed⟩
  cases att with
  | none => simp [attemptFlush] at member
  | some att => simp [rowOf_outcome (show row ∈ rowOf cfg att _ from member)] at landed

/-- Only a match of an open attempt shows that it landed. -/
theorem attemptStep_showsLanded {att : Option TriggerAttempt} {input : Input}
    (shown : ShowsLanded (attemptStep cfg key sig att input).2) :
    att.isSome ∧ ∃ m cache now, input = .matched m cache now ∧ m.signature = sig := by
  obtain ⟨row, member, landed⟩ := shown
  cases input with
  | register reg =>
    simp only [attemptStep] at member
    split at member <;> simp at member
  | send s =>
    simp only [attemptStep] at member
    split at member
    · cases att with
      | none => simp at member
      | some att =>
        simp only at member
        split at member
        · simp [rowOf_outcome member] at landed
        · simp at member
    · simp at member
  | matched m cache now =>
    by_cases own : m.signature = sig
    · cases att with
      | none => simp [attemptStep] at member
      | some att => exact ⟨rfl, m, cache, now, rfl, own⟩
    · simp [attemptStep, own] at member
  | sweep now =>
    cases att with
    | none => simp [attemptStep] at member
    | some att =>
      simp only [attemptStep] at member
      split at member
      · simp [rowOf_outcome member] at landed
      · simp at member

theorem runAll_showsLanded {att : Option TriggerAttempt} {inputs : List Input}
    (shown : ShowsLanded (runAll (attemptStep cfg key sig) att inputs).2) :
    ∃ m cache now, .matched m cache now ∈ inputs ∧ m.signature = sig := by
  induction inputs generalizing att with
  | nil => exact absurd shown not_showsLanded_nil
  | cons input rest ih =>
    rw [runAll_cons] at shown
    rcases showsLanded_append.mp shown with first | later
    · obtain ⟨_, m, cache, now, rfl, own⟩ := attemptStep_showsLanded first
      exact ⟨m, cache, now, List.mem_cons_self .., own⟩
    · obtain ⟨m, cache, now, member, own⟩ := ih later
      exact ⟨m, cache, now, List.mem_cons_of_mem _ member, own⟩

/-! ## The stop flag -/

section Stop

variable (cfg) (before after : List (Act Channel Event Reading))

/-- The thread when the flag is set. -/
def stopped : SelectLoop.Thread State Channel Event :=
  ((thread cfg).run (before ++ [.setStop])).1

/-- What the thread still gives to the handlers once the flag is set. -/
def lateTaken : List (Taken Event Reading) := (runAll (thread cfg).act (stopped cfg before) after).2

/-- The events that wait in the channels when the flag is set. -/
def waiting : List Event := ((thread cfg).run before).1.queued

/-- All that the recorder gives out, with the last flush. -/
def effectsOf (acts : List (Act Channel Event Reading)) : List RecorderEffect :=
  (runLoop cfg (handled cfg acts)).2

/-- Every registration that waits when the flag is set gets exactly one row, and an
attempt whose match waits is recorded as landed. -/
structure LosesNothing : Prop where
  registers : ∀ reg, .register reg ∈ waiting cfg before →
    ∃ row, ownRecords (keyOf reg) (effectsOf cfg (before ++ .setStop :: after)) = [row]
  matched : ∀ m, .matched m ∈ waiting cfg before →
    ∀ reg, .register reg ∈ (thread cfg).enqueued before → reg.signature = m.signature →
      ShowsLanded (ownRecords (keyOf reg) (effectsOf cfg (before ++ .setStop :: after)))

/-- The round under way takes every registration that waits, and for every match that
waits its attempt has landed before or is open and its match is taken in this round. -/
structure TakenInRound : Prop where
  registers : ∀ reg, .register reg ∈ waiting cfg before →
    .register reg ∈ Taken.events (lateTaken cfg before after)
  matched : ∀ m, .matched m ∈ waiting cfg before →
    ∀ reg, .register reg ∈ (thread cfg).enqueued before → reg.signature = m.signature →
      ShowsLanded (ownRecords (keyOf reg) (runAll (step cfg) {} (handled cfg before)).2) ∨
        ((((thread cfg).run before).1.state.attempts.get (keyOf reg)).isSome ∧
          ∃ next, .matched next ∈ Taken.events (lateTaken cfg before after) ∧
            next.signature = m.signature)

end Stop

variable {before after : List (Act Channel Event Reading)}

theorem stopped_eq : stopped cfg before = { ((thread cfg).run before).1 with stop := true } := by
  rw [stopped, SelectLoop.run, runAll_concat]
  rfl

/-- **The round under way takes at most one event.** -/
theorem lateTaken_length_le : (Taken.events (lateTaken cfg before after)).length ≤ 1 := by
  have few := @SelectLoop.stopped_length_le _ _ _ _ _ _ (thread cfg) (stopped cfg before)
    (fun _ => rfl) (by rw [stopped_eq]) after
  refine few.trans ?_
  split <;> omega

theorem run_setStop :
    (thread cfg).run (before ++ .setStop :: after) =
      ((runAll (thread cfg).act (stopped cfg before) after).1,
        ((thread cfg).run before).2 ++ lateTaken cfg before after) := by
  rw [SelectLoop.run, runAll_append, runAll_cons, lateTaken, stopped_eq]
  rfl

theorem handled_setStop :
    handled cfg (before ++ .setStop :: after) =
      handled cfg before ++ (lateTaken cfg before after).map toInput := by
  rw [handled, run_setStop, List.map_append]
  rfl

/-- What waits is taken in the round or left behind. -/
theorem waiting_taken_or_left {event : Event} (waits : event ∈ waiting cfg before) :
    event ∈ Taken.events (lateTaken cfg before after) ∨
      event ∈ ((thread cfg).run (before ++ .setStop :: after)).1.queued := by
  have perm := @SelectLoop.runAll_perm _ _ _ _ _ _ (thread cfg) (stopped cfg before) after
  have member : event ∈ (stopped cfg before).queued := by rwa [stopped_eq]
  rw [run_setStop]
  exact List.mem_append.mp (perm.symm.subset (List.mem_append_left _ member))

/-- The registrations that were handled and those left behind are those enqueued. -/
theorem registrations_perm (acts : List (Act Channel Event Reading)) :
    (registrations (handled cfg acts) ++
        eventRegistrations ((thread cfg).run acts).1.queued).Perm
      (eventRegistrations ((thread cfg).enqueued acts)) := by
  have perm := ((thread cfg).run_perm acts).filterMap Event.register?
  rw [List.filterMap_append] at perm
  rw [handled, registrations_map_toInput]
  exact perm

theorem mem_of_mem_map_toInput {taken : List (Taken Event Reading)} {m : MatchEvent}
    {cache : Option SlotHashCache} {now : Instant}
    (member : .matched m cache now ∈ taken.map toInput) : .matched m ∈ Taken.events taken := by
  obtain ⟨given, present, same⟩ := List.mem_map.mp member
  refine List.mem_filterMap.mpr ⟨given, present, ?_⟩
  cases given with
  | event event reading =>
    cases event with
    | register | send => cases same
    | matched other =>
      cases same
      rfl
  | sweep reading => cases same

/-- **What the round under way adds to an attempt.** It lands exactly when it is open
and its match is taken. -/
theorem lateTaken_showsLanded {att : Option TriggerAttempt}
    (registered : ∀ value, att = some value → ∃ reg, value.register = some reg) :
    ShowsLanded (runAll (attemptStep cfg key sig) att
        ((lateTaken cfg before after).map toInput)).2 ↔
      att.isSome ∧ ∃ m, .matched m ∈ Taken.events (lateTaken cfg before after) ∧
        m.signature = sig := by
  obtain ⟨sweeps, eventless, shape⟩ := @SelectLoop.stopped_taken _ _ _ _ _ _ (thread cfg)
    (stopped cfg before) (fun _ => rfl) (by rw [stopped_eq]) after
  have unmatched : ∀ {current}, ¬ ShowsLanded
      (runAll (attemptStep cfg key sig) current (sweeps.map toInput)).2 := by
    intro current shown
    obtain ⟨m, cache, now, member, _⟩ := runAll_showsLanded shown
    simpa [eventless] using mem_of_mem_map_toInput member
  rw [lateTaken]
  rcases shape with only | ⟨event, reading, only⟩
  · rw [only, eventless]
    simpa using unmatched
  · rw [only, Taken.events_event, eventless, List.map_cons, runAll_cons, showsLanded_append,
      or_iff_left unmatched]
    constructor
    · intro shown
      obtain ⟨isOpen, m, cache, now, same, own⟩ := attemptStep_showsLanded shown
      cases event with
      | register | send => cases same
      | matched other =>
        cases same
        exact ⟨isOpen, m, by simp, own⟩
    · rintro ⟨isOpen, m, member, own⟩
      obtain rfl : .matched m = event := by simpa using member
      obtain ⟨value, rfl⟩ := Option.isSome_iff_exists.mp isOpen
      obtain ⟨reg, known⟩ := registered value rfl
      simp [toInput, attemptStep, own, ShowsLanded, rowOf, known, makeRecord]

/-- If the registrations that were enqueued share nothing, nor do those that were handled
and those left behind. -/
theorem handled_apart {acts : List (Act Channel Event Reading)}
    (distinct : (eventRegistrations ((thread cfg).enqueued acts)).Pairwise ShareNothing) :
    Distinct (handled cfg acts) ∧ ∀ other ∈ registrations (handled cfg acts),
      ∀ reg ∈ eventRegistrations ((thread cfg).run acts).1.queued, ShareNothing other reg := by
  have apart := (registrations_perm acts).symm.pairwise distinct (Std.Symm.symm _ _)
  exact ⟨(List.pairwise_append.mp apart).1, (List.pairwise_append.mp apart).2.2⟩

/-- A registration that is left behind has no row. -/
theorem leftBehind_noRow {acts : List (Act Channel Event Reading)}
    (distinct : (eventRegistrations ((thread cfg).enqueued acts)).Pairwise ShareNothing)
    {reg : RegisterEvent} (left : .register reg ∈ ((thread cfg).run acts).1.queued) :
    ownRecords (keyOf reg) (effectsOf cfg acts) = [] := by
  refine @ownRecords_unregistered cfg _ reg.signature _ fun other member => ?_
  exact (handled_apart distinct).2 other member reg (mem_eventRegistrations.mpr left)

/-- An attempt is recorded as landed when it landed before the flag was set, or when the
round under way takes its match and it is open. -/
theorem enqueued_showsLanded {reg : RegisterEvent}
    (distinct : (eventRegistrations
      ((thread cfg).enqueued (before ++ .setStop :: after))).Pairwise ShareNothing)
    (enqueued : .register reg ∈ (thread cfg).enqueued before) :
    ShowsLanded (ownRecords (keyOf reg) (effectsOf cfg (before ++ .setStop :: after))) ↔
      ShowsLanded (ownRecords (keyOf reg) (runAll (step cfg) {} (handled cfg before)).2) ∨
        ((((thread cfg).run before).1.state.attempts.get (keyOf reg)).isSome ∧
          ∃ next, .matched next ∈ Taken.events (lateTaken cfg before after) ∧
            next.signature = reg.signature) := by
  have member : reg ∈ eventRegistrations
      ((thread cfg).enqueued (before ++ .setStop :: after)) := by
    rw [mem_eventRegistrations, SelectLoop.enqueued, runAll_append]
    exact List.mem_append_left _ enqueued
  have among : ∀ other ∈ registrations (handled cfg (before ++ .setStop :: after)),
      other ∈ eventRegistrations ((thread cfg).enqueued (before ++ .setStop :: after)) :=
    fun other present => (registrations_perm _).subset (List.mem_append_left _ present)
  have identifies := identifies_of_distinct distinct among member
  have earlier : ∀ input ∈ handled cfg before, Identifies (keyOf reg) reg.signature input := by
    intro input present
    exact identifies input (by rw [handled_setStop]; exact List.mem_append_left _ present)
  obtain ⟨linked, held, written⟩ := @run_attempt cfg _ _ _ earlier
  have registered : ∀ value, (runAll (step cfg) {} (handled cfg before)).1.attempts.get
      (keyOf reg) = some value → ∃ own, value.register = some own := by
    intro value present
    obtain ⟨own, known, _⟩ := linked.named _ value present
    exact ⟨own, known⟩
  rw [effectsOf, runLoop_attempt identifies, attemptRows, handled_setStop, runAll_append,
    written, thread_state]
  rw [held] at registered ⊢
  simp only [showsLanded_append, not_showsLanded_flush, or_false]
  rw [lateTaken_showsLanded registered]

/-- **Nothing is lost at shutdown exactly when the round under way takes all that
counts.** No two registrations that were enqueued share their attempt or their
signature. -/
theorem shutdown_losesNothing_iff (cfg : Config) (before after : List (Act Channel Event Reading))
    (distinct : (eventRegistrations
      ((thread cfg).enqueued (before ++ .setStop :: after))).Pairwise ShareNothing) :
    LosesNothing cfg before after ↔ TakenInRound cfg before after := by
  have handledApart : Distinct (handled cfg (before ++ .setStop :: after)) :=
    (handled_apart distinct).1
  have registers : ∀ reg, .register reg ∈ waiting cfg before →
      ((∃ row, ownRecords (keyOf reg) (effectsOf cfg (before ++ .setStop :: after)) = [row]) ↔
        .register reg ∈ Taken.events (lateTaken cfg before after)) := by
    intro reg waits
    constructor
    · rintro ⟨row, only⟩
      rcases waiting_taken_or_left waits with taken | left
      · exact taken
      · simp [leftBehind_noRow distinct left] at only
    · intro taken
      have member : reg ∈ registrations (handled cfg (before ++ .setStop :: after)) := by
        rw [handled_setStop, registrations_append, registrations_map_toInput]
        exact List.mem_append_right _ (mem_eventRegistrations.mpr taken)
      obtain ⟨row, only, _⟩ := @runLoop_row cfg _ handledApart reg member
      exact ⟨row, only⟩
  constructor
  · intro nothing
    exact ⟨fun reg waits => (registers reg waits).mp (nothing.registers reg waits),
      fun m waits reg enqueued own =>
        own ▸ (enqueued_showsLanded distinct enqueued).mp
          (nothing.matched m waits reg enqueued own)⟩
  · intro taken
    exact ⟨fun reg waits => (registers reg waits).mpr (taken.registers reg waits),
      fun m waits reg enqueued own =>
        (enqueued_showsLanded distinct enqueued).mpr (own ▸ taken.matched m waits reg enqueued own)⟩

/-- A registration waits when the flag is set and the recorder leaves without it; and a
match waits, and its attempt is flushed as pending. -/
theorem shutdown_losesWaiting :
    (((thread sampleConfig).run [.enqueue (.register sampleRegister), .setStop, .check]).1.phase =
        .returned ∧
      ¬ LosesNothing sampleConfig [.enqueue (.register sampleRegister)] [.check]) ∧
    ¬ LosesNothing sampleConfig
      [.enqueue (.register sampleRegister), .check, .receive .register ⟨none, 2500⟩, .pass,
        .enqueue (.matched sampleHit.event)] [.check] := by
  refine ⟨⟨by decide +kernel, fun nothing => ?_⟩, fun nothing => ?_⟩
  · obtain ⟨row, only⟩ := nothing.registers sampleRegister (by decide +kernel)
    have none' : ownRecords (keyOf sampleRegister) (effectsOf sampleConfig
        [.enqueue (.register sampleRegister), .setStop, .check]) = [] := by
      decide +kernel
    simp [none'] at only
  · have shown := nothing.matched sampleHit.event (by decide +kernel) sampleRegister
      (by decide +kernel) rfl
    have pending : ¬ ShowsLanded (ownRecords (keyOf sampleRegister) (effectsOf sampleConfig
        [.enqueue (.register sampleRegister), .check, .receive .register ⟨none, 2500⟩, .pass,
          .enqueue (.matched sampleHit.event), .setStop, .check])) := by
      decide +kernel
    exact pending shown

/-- A match of the second attempt. -/
def sampleMatch' : MatchEvent := { sampleHit.event with signature := Samples.signature 2 }

/-- Two attempts are registered, and the second one lands. Then a match of the first one and
a repeat for the second one wait, and the recorder is past its stop check. -/
def busyActs : List (Act Channel Event Reading) :=
  [.enqueue (.register sampleRegister), .check, .receive .register ⟨none, 2500⟩, .pass,
    .enqueue (.register sampleRegister'), .check, .receive .register ⟨none, 2600⟩, .pass,
    .enqueue (.matched sampleMatch'), .check, .receive .matched ⟨none, 5000⟩, .pass,
    .enqueue (.matched sampleHit.event), .enqueue (.matched sampleMatch'), .check]

/-- The recorder takes the match of the first attempt and leaves. -/
def lastRound : List (Act Channel Event Reading) :=
  [.receive .matched ⟨none, 5500⟩, .pass, .check]

theorem busyActs_taken : TakenInRound sampleConfig busyActs lastRound := by
  have waits : waiting sampleConfig busyActs =
      [.matched sampleHit.event, .matched sampleMatch'] := by decide +kernel
  have queued : (thread sampleConfig).enqueued busyActs =
      [.register sampleRegister, .register sampleRegister', .matched sampleMatch',
        .matched sampleHit.event, .matched sampleMatch'] := by decide +kernel
  constructor
  · intro reg member
    rw [waits] at member
    simp at member
  · intro m member reg enqueued own
    rw [waits] at member
    rw [queued] at enqueued
    simp only [List.mem_cons, List.not_mem_nil, or_false, Event.matched.injEq,
      Event.register.injEq, reduceCtorEq] at member enqueued
    rcases member with rfl | rfl <;> rcases enqueued with rfl | rfl
    · exact .inr ⟨by decide +kernel, sampleHit.event, by decide +kernel, rfl⟩
    · exact absurd own (by decide)
    · exact absurd own (by decide)
    · exact .inl (by decide +kernel)

theorem shutdown_losesNothing_inRound :
    waiting sampleConfig busyActs = [.matched sampleHit.event, .matched sampleMatch'] ∧
      LosesNothing sampleConfig busyActs lastRound :=
  ⟨by decide +kernel,
    (shutdown_losesNothing_iff sampleConfig busyActs lastRound (by decide +kernel)).mpr
      busyActs_taken⟩

end SenderAnalysis.Recorder

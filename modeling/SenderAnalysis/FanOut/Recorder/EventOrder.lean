import Mathlib.Data.List.Permutation
import SenderAnalysis.FanOut.Recorder.Attempts
import SenderAnalysis.FanOut.Samples

/-!
# The order of an attempt's events

The registration of an attempt, the outcome of its send and the match of its
signature come in on three channels, and the recorder takes them in any order. An
event that is taken before the registration finds no attempt and is dropped, and so
is the outcome of a send that is taken after the match. The row of the attempt
keeps all of them exactly when they are taken in the order registration, send,
match (`keepsEvents_iff`).
-/

set_option autoImplicit false

namespace SenderAnalysis.Recorder

variable {cfg : Config} {key : AttemptKey} {sig : Signature}

/-- The input is an event of the attempt: it names its key or its signature. -/
def concerns (key : AttemptKey) (sig : Signature) : Input → Bool
  | .register reg => keyOf reg == key || reg.signature == sig
  | .send s => (s.triggerId, s.senderId) == key
  | .matched m _ _ => m.signature == sig
  | .sweep _ => false

/-- An event of no concern to the attempt leaves it alone, a sweep before its
deadline too. -/
theorem attemptStep_other {att : Option TriggerAttempt} {input : Input}
    (other : concerns key sig input = false)
    (early : ∀ now, input = .sweep now → ∀ opened, att = some opened → now < opened.deadlineAt) :
    attemptStep cfg key sig att input = (att, []) := by
  cases input with
  | register reg =>
    have apart : keyOf reg ≠ key := by
      intro own
      simp [concerns, own] at other
    simp only [attemptStep, if_neg apart]
  | send s =>
    have apart : (s.triggerId, s.senderId) ≠ key := by
      intro own
      simp [concerns, own] at other
    simp only [attemptStep, if_neg apart]
  | matched m cache now =>
    have apart : m.signature ≠ sig := by
      intro own
      simp [concerns, own] at other
    simp only [attemptStep, if_neg apart]
  | sweep now =>
    cases att with
    | none => rfl
    | some opened =>
      have waiting := Nat.not_le.mpr (early now rfl opened rfl)
      simp only [attemptStep, if_neg waiting]

/-- The deadline of an open attempt. -/
def Due (deadlineAt : Instant) (att : Option TriggerAttempt) : Prop :=
  ∀ opened, att = some opened → opened.deadlineAt = deadlineAt

/-- Registrations with the same deadline keep it. -/
theorem attemptStep_due {deadlineAt : Instant} {att : Option TriggerAttempt}
    (due : Due deadlineAt att) {input : Input}
    (registered : ∀ reg, input = .register reg → keyOf reg = key →
      reg.triggerObservedAt + cfg.deadline = deadlineAt) :
    Due deadlineAt (attemptStep cfg key sig att input).1 := by
  intro opened found
  cases input with
  | register reg =>
    by_cases own : keyOf reg = key
    · simp only [attemptStep, if_pos own, Option.some.injEq] at found
      rw [← found]
      exact registered reg rfl own
    · simp only [attemptStep, if_neg own] at found
      exact due opened found
  | send s =>
    by_cases own : (s.triggerId, s.senderId) = key
    · simp only [attemptStep, if_pos own] at found
      cases att with
      | none => simp at found
      | some before =>
        by_cases failed : s.outcome.error.isSome
        · simp [failed] at found
        · simp only [failed, Bool.false_eq_true, if_false, Option.some.injEq] at found
          rw [← found]
          exact due before rfl
    · simp only [attemptStep, if_neg own] at found
      exact due opened found
  | matched m cache now =>
    by_cases own : m.signature = sig
    · simp only [attemptStep, if_pos own] at found
      cases att <;> simp at found
    · simp only [attemptStep, if_neg own] at found
      exact due opened found
  | sweep now =>
    cases att with
    | none => simp [attemptStep] at found
    | some before =>
      by_cases late : before.deadlineAt ≤ now
      · simp [attemptStep, late] at found
      · simp only [attemptStep, if_neg late, Option.some.injEq] at found
        rw [← found]
        exact due before rfl

/-- Before the deadline only the events of the attempt matter to it. -/
theorem runAll_concerns {deadlineAt : Instant} {att : Option TriggerAttempt}
    (due : Due deadlineAt att) {inputs : List Input}
    (registered : ∀ reg, .register reg ∈ inputs → keyOf reg = key →
      reg.triggerObservedAt + cfg.deadline = deadlineAt)
    (early : ∀ now, .sweep now ∈ inputs → now < deadlineAt) :
    runAll (attemptStep cfg key sig) att inputs =
      runAll (attemptStep cfg key sig) att (inputs.filter (concerns key sig)) := by
  induction inputs generalizing att with
  | nil => rfl
  | cons input rest ih =>
    have restRegistered : ∀ reg, .register reg ∈ rest → keyOf reg = key →
        reg.triggerObservedAt + cfg.deadline = deadlineAt :=
      fun reg member => registered reg (List.mem_cons_of_mem _ member)
    have restEarly : ∀ now, .sweep now ∈ rest → now < deadlineAt :=
      fun now member => early now (List.mem_cons_of_mem _ member)
    cases own : concerns key sig input with
    | true =>
      have due' := @attemptStep_due cfg key sig _ _ due input fun reg same =>
        registered reg (same ▸ List.mem_cons_self ..)
      rw [List.filter_cons_of_pos own, runAll_cons, runAll_cons,
        ih due' restRegistered restEarly]
    | false =>
      have idle : attemptStep cfg key sig att input = (att, []) := by
        refine attemptStep_other own fun now same opened found => ?_
        rw [due opened found]
        exact early now (same ▸ List.mem_cons_self ..)
      rw [List.filter_cons_of_neg (by simp [own]), runAll_cons, idle, List.nil_append,
        ih due restRegistered restEarly]

/-- After its events an attempt is ended once, by its deadline or by the flush. -/
theorem rows_of_unconcerned {att : Option TriggerAttempt} {rest : List Input}
    (later : ∀ input ∈ rest, concerns key sig input = false) :
    (runAll (attemptStep cfg key sig) att rest).2 ++
        attemptFlush cfg (runAll (attemptStep cfg key sig) att rest).1 =
      attemptFlush cfg att := by
  induction rest generalizing att with
  | nil => rfl
  | cons input rest ih =>
    have restLater : ∀ next ∈ rest, concerns key sig next = false :=
      fun next member => later next (List.mem_cons_of_mem _ member)
    have other := later input (List.mem_cons_self ..)
    rw [runAll_cons, List.append_assoc, ih restLater]
    by_cases late : ∃ now opened, input = .sweep now ∧ att = some opened ∧ opened.deadlineAt ≤ now
    · obtain ⟨now, opened, rfl, rfl, past⟩ := late
      simp [attemptStep, past, attemptFlush]
    · have idle : attemptStep cfg key sig att input = (att, []) := by
        refine attemptStep_other other fun now same opened found => ?_
        by_contra past
        exact late ⟨now, opened, same, found, Nat.not_lt.mp past⟩
      rw [idle, List.nil_append]

/-- **The rows of an attempt whose events are all received before its deadline are
decided by these events, in their order.** -/
theorem ownRecords_of_events {reg : RegisterEvent} {received rest : List Input}
    (only : ∀ other, .register other ∈ received → concerns (keyOf reg) reg.signature
      (.register other) = true → other = reg)
    (later : ∀ input ∈ rest, concerns (keyOf reg) reg.signature input = false)
    (early : ∀ now, .sweep now ∈ received → now < reg.triggerObservedAt + cfg.deadline) :
    ownRecords (keyOf reg) (runLoop cfg (received ++ rest)).2 =
      attemptRows cfg (keyOf reg) reg.signature
        (received.filter (concerns (keyOf reg) reg.signature)) := by
  have identifies : ∀ input ∈ received ++ rest, Identifies (keyOf reg) reg.signature input := by
    intro input member
    cases input with
    | send _ | matched _ _ _ | sweep _ => trivial
    | register other =>
      cases own : concerns (keyOf reg) reg.signature (.register other) with
      | false =>
        simp only [concerns, Bool.or_eq_false_iff, beq_eq_false_iff_ne] at own
        exact iff_of_false own.1 own.2
      | true =>
        rcases List.mem_append.mp member with before | after
        · rw [only other before own]
          exact iff_of_true rfl rfl
        · simp [later _ after] at own
  have sameDeadline : ∀ other, .register other ∈ received → keyOf other = keyOf reg →
      other.triggerObservedAt + cfg.deadline = reg.triggerObservedAt + cfg.deadline := by
    intro other member own
    rw [only other member (by simp [concerns, own])]
  rw [runLoop_attempt identifies, attemptRows, attemptRows, runAll_append,
    ← @runAll_concerns cfg (keyOf reg) reg.signature (reg.triggerObservedAt + cfg.deadline) none
      (by simp [Due]) received sameDeadline early]
  simp only [List.append_assoc, rows_of_unconcerned later]

/-! ## Which orders keep all events -/

/-- The one row of the attempt carries the outcome of the send and, after a match,
says that the attempt landed and how it was observed. -/
def KeepsEvents (cfg : Config) (reg : RegisterEvent) (s : SendEvent) (m : Option MatchEvent)
    (rows : List TriggerRecord) : Prop :=
  ∃ outcome, rows = [makeRecord cfg reg (some s) m outcome] ∧ (m.isSome → outcome = .landed)

/-- A row without a send is none with a send. -/
theorem makeRecord_ne_of_send {reg : RegisterEvent} {s : SendEvent} {m m' : Option MatchEvent}
    {outcome outcome' : FinalOutcome} :
    makeRecord cfg reg none m outcome ≠ makeRecord cfg reg (some s) m' outcome' := by
  intro same
  have wall := congrArg TriggerRecord.wallPreparedToSendNs same
  simp [makeRecord] at wall

/-- A row without a match is none with a match. -/
theorem makeRecord_ne_of_match {reg : RegisterEvent} {send send' : Option SendEvent}
    {m : MatchEvent} {outcome outcome' : FinalOutcome} :
    makeRecord cfg reg send none outcome ≠ makeRecord cfg reg send' (some m) outcome' := by
  intro same
  have observed := congrArg TriggerRecord.observedSlot same
  simp [makeRecord] at observed

/-- A match with the data the recorder reads for it. -/
structure Hit where
  event : MatchEvent
  cache : Option SlotHashCache
  now : Instant

def Hit.input (hit : Hit) : Input := .matched hit.event hit.cache hit.now

/-- The events of an attempt, in the order in which they come about. -/
def inOrder (reg : RegisterEvent) (s : SendEvent) (hit : Option Hit) : List Input :=
  .register reg :: .send s :: (hit.map Hit.input).toList

section Orders

variable {reg : RegisterEvent} {s : SendEvent}

theorem attemptRows_send_match {hit : Option Hit}
    (ownSend : (s.triggerId, s.senderId) = keyOf reg) (noError : s.outcome.error = none)
    (ownMatch : ∀ found, hit = some found → found.event.signature = reg.signature) :
    KeepsEvents cfg reg s (hit.map Hit.event)
      (attemptRows cfg (keyOf reg) reg.signature (inOrder reg s hit)) := by
  cases hit with
  | none =>
    refine ⟨.unknownPending, ?_, by simp⟩
    simp [attemptRows, inOrder, runAll_cons, attemptStep, ownSend, noError, registeredAttempt,
      attemptFlush, rowOf]
  | some found =>
    refine ⟨.landed, ?_, fun _ => rfl⟩
    simp [attemptRows, inOrder, Hit.input, runAll_cons, attemptStep, ownSend, noError,
      registeredAttempt, attemptFlush, rowOf, ownMatch found rfl]

/-- In every other order of the events the row loses one of them. -/
theorem not_keepsEvents {hit : Option Hit} {events : List Input}
    (ownSend : (s.triggerId, s.senderId) = keyOf reg) (noError : s.outcome.error = none)
    (ownMatch : ∀ found, hit = some found → found.event.signature = reg.signature)
    (all : events.Perm (inOrder reg s hit)) (otherwise : events ≠ inOrder reg s hit) :
    ¬ KeepsEvents cfg reg s (hit.map Hit.event)
      (attemptRows cfg (keyOf reg) reg.signature events) := by
  rintro ⟨outcome, kept, landed⟩
  rw [← List.mem_permutations'] at all
  cases hit with
  | none =>
    simp only [inOrder, Option.map_none, Option.toList_none, List.permutations',
      List.permutations'Aux, List.flatMap_cons, List.flatMap_nil, List.map_cons, List.map_nil,
      List.append_nil, List.mem_cons, List.not_mem_nil, or_false] at all
    rcases all with rfl | rfl
    · exact otherwise rfl
    · simp [attemptRows, runAll_cons, attemptStep, ownSend, registeredAttempt, attemptFlush, rowOf]
        at kept
      exact makeRecord_ne_of_send kept
  | some found =>
    have ownSig := ownMatch found rfl
    simp only [inOrder, Option.map_some, Option.toList_some, List.permutations',
      List.permutations'Aux, List.flatMap_cons, List.flatMap_nil, List.map_cons, List.map_nil,
      List.append_nil, List.mem_cons, List.cons_append, List.nil_append, List.not_mem_nil,
      or_false] at all
    rcases all with rfl | rfl | rfl | rfl | rfl | rfl <;>
      simp [attemptRows, Hit.input, runAll_cons, attemptStep, ownSend, noError, registeredAttempt,
        attemptFlush, rowOf, ownSig] at kept
    · exact otherwise rfl
    all_goals
      first
      | exact makeRecord_ne_of_send kept
      | exact makeRecord_ne_of_match kept

end Orders

/-- The registration is the only one among the events of an attempt. -/
theorem eq_of_register_mem {reg other : RegisterEvent} {s : SendEvent} {hit : Option Hit}
    (member : .register other ∈ inOrder reg s hit) : other = reg := by
  cases hit <;> simpa [inOrder, Hit.input] using member

/-- **The row of an attempt keeps its events exactly when they are received in the
order registration, send, match.** The events of the attempt, those that name its
key or its signature, are its registration, one outcome of its send without an
error, and at most one match. All are received before the sweep that would end the
attempt; other attempts' events, sweeps and the flush come at any time. -/
theorem keepsEvents_iff (cfg : Config) (reg : RegisterEvent) (s : SendEvent) (hit : Option Hit)
    (received rest : List Input) (ownSend : (s.triggerId, s.senderId) = keyOf reg)
    (noError : s.outcome.error = none)
    (ownMatch : ∀ found, hit = some found → found.event.signature = reg.signature)
    (all : (received.filter (concerns (keyOf reg) reg.signature)).Perm (inOrder reg s hit))
    (later : ∀ input ∈ rest, concerns (keyOf reg) reg.signature input = false)
    (early : ∀ now, .sweep now ∈ received → now < reg.triggerObservedAt + cfg.deadline) :
    KeepsEvents cfg reg s (hit.map Hit.event)
        (ownRecords (keyOf reg) (runLoop cfg (received ++ rest)).2) ↔
      received.filter (concerns (keyOf reg) reg.signature) = inOrder reg s hit := by
  have only : ∀ other, .register other ∈ received → concerns (keyOf reg) reg.signature
      (.register other) = true → other = reg := by
    intro other member own
    exact eq_of_register_mem (all.subset (List.mem_filter.mpr ⟨member, own⟩))
  rw [ownRecords_of_events only later early]
  constructor
  · intro kept
    by_contra otherwise
    exact not_keepsEvents ownSend noError ownMatch all otherwise kept
  · intro ordered
    rw [ordered]
    exact attemptRows_send_match ownSend noError ownMatch

/-! ## An attempt -/

/-- A recorder with a deadline of 90 seconds. -/
def sampleConfig : Config where
  runId := "run"
  anchor := 0
  deadline := 90000000000
  nonceMode := true
  hashv := fun _ => Hash.default

def sampleRegister : RegisterEvent where
  triggerId := .fromSlotTick 100 5
  senderId := 1
  senderName := "a"
  endpointUrl := "http://x"
  protocol := "http"
  signature := Samples.signature 1
  slot := 100
  tick := 5
  triggerObservedAt := 2000
  preparedAt := 1000
  blockhash := Samples.hash 1
  nonceId := some 7

def sampleSend : SendEvent where
  triggerId := .fromSlotTick 100 5
  senderId := 1
  outcome := {
    sendAt := 3000
    sendAckAt := some 4000
    signature := Samples.signature 1
    httpStatus := some 200
    rpcErrCode := none
    rpcErrMessage := none
    providerRequestId := none
    error := none
    endpointUrlUsed := none }

def sampleHit : Hit where
  event := {
    signature := Samples.signature 1
    observedAt := 5000
    observedSlot := 100
    observedEntryIndex := 9
    observedTick := 6
    observedSource := .shredStream }
  cache := none
  now := 5000

/-- The send is taken before the registration, the match before the registration,
and the match before the send: each time an event is lost. -/
theorem sample_losesEvents :
    ¬ KeepsEvents sampleConfig sampleRegister sampleSend none
        (ownRecords (keyOf sampleRegister)
          (runLoop sampleConfig [.send sampleSend, .register sampleRegister]).2) ∧
      ¬ KeepsEvents sampleConfig sampleRegister sampleSend (some sampleHit.event)
        (ownRecords (keyOf sampleRegister) (runLoop sampleConfig
          [sampleHit.input, .register sampleRegister, .send sampleSend]).2) ∧
      ¬ KeepsEvents sampleConfig sampleRegister sampleSend (some sampleHit.event)
        (ownRecords (keyOf sampleRegister) (runLoop sampleConfig
          [.register sampleRegister, sampleHit.input, .send sampleSend]).2) := by
  refine ⟨?_, ?_, ?_⟩
  · rintro ⟨outcome, kept, -⟩
    have sendless : (ownRecords (keyOf sampleRegister) (runLoop sampleConfig
        [.send sampleSend, .register sampleRegister]).2).map
          TriggerRecord.wallPreparedToSendNs = [none] := by
      decide +kernel
    simp [kept, makeRecord] at sendless
  · rintro ⟨outcome, kept, landed⟩
    have pending : (ownRecords (keyOf sampleRegister) (runLoop sampleConfig
        [sampleHit.input, .register sampleRegister, .send sampleSend]).2).map
          TriggerRecord.finalOutcome = [.unknownPending] := by
      decide +kernel
    simp [kept, makeRecord, landed rfl] at pending
  · rintro ⟨outcome, kept, -⟩
    have sendless : (ownRecords (keyOf sampleRegister) (runLoop sampleConfig
        [.register sampleRegister, sampleHit.input, .send sampleSend]).2).map
          TriggerRecord.wallPreparedToSendNs = [none] := by
      decide +kernel
    simp [kept, makeRecord] at sendless

/-- In order nothing is lost. -/
theorem sample_keepsEvents :
    KeepsEvents sampleConfig sampleRegister sampleSend (some sampleHit.event)
      (ownRecords (keyOf sampleRegister) (runLoop sampleConfig
        ([.register sampleRegister, .send sampleSend, .sweep 4500, sampleHit.input] ++
          [.sweep 100000000000])).2) :=
  (keepsEvents_iff sampleConfig sampleRegister sampleSend (some sampleHit)
    [.register sampleRegister, .send sampleSend, .sweep 4500, sampleHit.input]
    [.sweep 100000000000] rfl rfl (by rintro _ ⟨⟩; rfl) (.refl _) (by simp [concerns])
    (by simp [sampleHit, Hit.input, sampleRegister, sampleConfig])).mpr rfl

end SenderAnalysis.Recorder

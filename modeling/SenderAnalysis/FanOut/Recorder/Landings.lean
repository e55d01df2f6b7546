import SenderAnalysis.FanOut.Recorder.EventOrder

/-!
# Landings

A match says that a transaction landed. The recorder makes use of it as long as the
attempt is open. An attempt is ended by the first of a match, an error of its send
and its deadline, so the outcome of an attempt with a send error depends on which of
the two is taken first (`sendMatch_outcome`), and the nonce manager is told of a
landing exactly when nothing has ended the attempt before (`landing_reported_iff`).
-/

set_option autoImplicit false

namespace SenderAnalysis.Recorder

variable {cfg : Config} {key : AttemptKey} {sig : Signature}

/-! ## A send and a match -/

/-- The outcome when the send is taken before the match. -/
def sendFirstOutcome (s : SendEvent) : FinalOutcome :=
  if s.outcome.error.isSome then .sendError else .landed

/-- What a row says of the attempt: its outcome and the error of its send. -/
def verdict (row : TriggerRecord) : FinalOutcome × Option String :=
  (row.finalOutcome, row.sendError)

/-- **A registered attempt with a send and a match gets exactly one row.** When the
match is taken first the row says that the attempt landed. When the send is taken
first it says so too, unless the send carries an error: then the row is a send error
with that error. -/
theorem sendMatch_outcome (cfg : Config) (reg : RegisterEvent) (s : SendEvent) (hit : Hit)
    (received rest : List Input) (ownSend : (s.triggerId, s.senderId) = keyOf reg)
    (ownMatch : hit.event.signature = reg.signature)
    (later : ∀ input ∈ rest, concerns (keyOf reg) reg.signature input = false)
    (early : ∀ now, .sweep now ∈ received → now < reg.triggerObservedAt + cfg.deadline) :
    (received.filter (concerns (keyOf reg) reg.signature) =
        [.register reg, .send s, hit.input] →
      (ownRecords (keyOf reg) (runLoop cfg (received ++ rest)).2).map verdict =
        [(sendFirstOutcome s, s.outcome.error)]) ∧
    (received.filter (concerns (keyOf reg) reg.signature) =
        [.register reg, hit.input, .send s] →
      (ownRecords (keyOf reg) (runLoop cfg (received ++ rest)).2).map verdict =
        [(.landed, none)]) := by
  constructor
  · intro events
    have only : ∀ other, .register other ∈ received → concerns (keyOf reg) reg.signature
        (.register other) = true → other = reg := by
      intro other member own
      have among : .register other ∈ [.register reg, .send s, hit.input] :=
        events ▸ List.mem_filter.mpr ⟨member, own⟩
      simpa [Hit.input] using among
    rw [ownRecords_of_events only later early, events]
    cases failed : s.outcome.error with
    | some error =>
      simp [attemptRows, Hit.input, runAll_cons, attemptStep, ownSend, ownMatch, failed,
        registeredAttempt, attemptFlush, rowOf, makeRecord, sendFirstOutcome, verdict]
    | none =>
      simp [attemptRows, Hit.input, runAll_cons, attemptStep, ownSend, ownMatch, failed,
        registeredAttempt, attemptFlush, rowOf, makeRecord, sendFirstOutcome, verdict]
  · intro events
    have only : ∀ other, .register other ∈ received → concerns (keyOf reg) reg.signature
        (.register other) = true → other = reg := by
      intro other member own
      have among : .register other ∈ [.register reg, hit.input, .send s] :=
        events ▸ List.mem_filter.mpr ⟨member, own⟩
      simpa [Hit.input] using among
    rw [ownRecords_of_events only later early, events]
    simp [attemptRows, Hit.input, runAll_cons, attemptStep, ownSend, ownMatch,
      registeredAttempt, attemptFlush, rowOf, makeRecord, verdict]

/-- A send that failed. -/
def sampleFailedSend : SendEvent :=
  { sampleSend with outcome := { sampleSend.outcome with error := some "timeout" } }

/-- The transaction landed, but the error of its send is taken first. -/
theorem failedSend_notLanded :
    (ownRecords (keyOf sampleRegister) (runLoop sampleConfig
        [.register sampleRegister, .send sampleFailedSend, sampleHit.input]).2).map
          TriggerRecord.finalOutcome = [.sendError] ∧
      (ownRecords (keyOf sampleRegister) (runLoop sampleConfig
        [.register sampleRegister, sampleHit.input, .send sampleFailedSend]).2).map
          TriggerRecord.finalOutcome = [.landed] := by
  decide +kernel

theorem sendMatch_outcome_failedSend :
    (ownRecords (keyOf sampleRegister) (runLoop sampleConfig
        ([.register sampleRegister, .send sampleFailedSend, sampleHit.input] ++ [])).2).map
          verdict = [(.sendError, some "timeout")] :=
  (sendMatch_outcome sampleConfig sampleRegister sampleFailedSend sampleHit
    [.register sampleRegister, .send sampleFailedSend, sampleHit.input] [] rfl rfl (by simp)
    (by simp [Hit.input])).1 rfl

/-! ## Telling the nonce manager -/

/-- The input ends an open attempt: an error of its send, a match, or a sweep at its
deadline or after it. -/
def ends (key : AttemptKey) (sig : Signature) (deadlineAt : Instant) : Input → Bool
  | .register _ => false
  | .send s => (s.triggerId, s.senderId) == key && s.outcome.error.isSome
  | .matched m _ _ => m.signature == sig
  | .sweep now => deadlineAt ≤ now

/-- An open attempt of a registration. -/
def OpenFor (reg : RegisterEvent) (deadlineAt : Instant) (att : TriggerAttempt) : Prop :=
  att.register = some reg ∧ att.deadlineAt = deadlineAt

/-- An input that does not end an open attempt keeps it open; one that does ends it. -/
theorem attemptStep_open {reg : RegisterEvent} {deadlineAt : Instant} {att : TriggerAttempt}
    (isOpen : OpenFor reg deadlineAt att) {input : Input}
    (unregistered : ∀ other, input = .register other → keyOf other ≠ key) :
    if ends key sig deadlineAt input then (attemptStep cfg key sig (some att) input).1 = none
    else ∃ next, (attemptStep cfg key sig (some att) input).1 = some next ∧
      OpenFor reg deadlineAt next := by
  obtain ⟨registered, due⟩ := isOpen
  cases input with
  | register other =>
    have apart := unregistered other rfl
    simp [ends, attemptStep, apart, OpenFor, registered, due]
  | send s =>
    by_cases own : (s.triggerId, s.senderId) = key
    · by_cases failed : s.outcome.error.isSome <;>
        simp [ends, attemptStep, own, failed, OpenFor, registered, due]
    · simp [ends, attemptStep, own, OpenFor, registered, due]
  | matched m cache now =>
    by_cases own : m.signature = sig <;>
      simp [ends, attemptStep, own, OpenFor, registered, due]
  | sweep now =>
    subst due
    by_cases late : att.deadlineAt ≤ now <;> simp [ends, attemptStep, late, OpenFor, registered]

/-- An attempt that is not open stays so until it is registered again. -/
theorem runAll_attemptStep_none {inputs : List Input}
    (unregistered : ∀ other, .register other ∈ inputs → keyOf other ≠ key) :
    (runAll (attemptStep cfg key sig) none inputs).1 = none := by
  induction inputs with
  | nil => rfl
  | cons input rest ih =>
    have still : (attemptStep cfg key sig none input).1 = none := by
      cases input with
      | register other => simp [attemptStep, unregistered other (List.mem_cons_self ..)]
      | send s => simp [attemptStep]
      | matched m cache now => simp [attemptStep]
      | sweep now => rfl
    rw [runAll_cons, still]
    exact ih fun other member => unregistered other (List.mem_cons_of_mem _ member)

/-- **An attempt is still open exactly when nothing has ended it.** -/
theorem runAll_attemptStep_open {reg : RegisterEvent} {deadlineAt : Instant}
    {att : TriggerAttempt} (isOpen : OpenFor reg deadlineAt att) {inputs : List Input}
    (unregistered : ∀ other, .register other ∈ inputs → keyOf other ≠ key) :
    if inputs.any (ends key sig deadlineAt) then
      (runAll (attemptStep cfg key sig) (some att) inputs).1 = none
    else ∃ last, (runAll (attemptStep cfg key sig) (some att) inputs).1 = some last ∧
      OpenFor reg deadlineAt last := by
  induction inputs generalizing att with
  | nil => simpa using isOpen
  | cons input rest ih =>
    have restUnregistered : ∀ other, .register other ∈ rest → keyOf other ≠ key :=
      fun other member => unregistered other (List.mem_cons_of_mem _ member)
    have first := @attemptStep_open cfg key sig _ _ _ isOpen input fun other same =>
      unregistered other (same ▸ List.mem_cons_self ..)
    rw [runAll_cons, List.any_cons]
    cases ended : ends key sig deadlineAt input with
    | true =>
      rw [ended, if_pos rfl] at first
      simp only [Bool.true_or, if_true, first]
      exact runAll_attemptStep_none restUnregistered
    | false =>
      rw [ended, if_neg Bool.false_ne_true] at first
      obtain ⟨next, found, isOpen'⟩ := first
      simpa only [Bool.false_or, found] using ih isOpen' restUnregistered

/-- The nonce manager is told that a transaction of the nonce landed. -/
def ReportsLanding (effects : List RecorderEffect) (id : NonceId) : Prop :=
  (∃ value, .trySend (.nonce (.onLandingWithBlockhash id value)) ∈ effects) ∨
    ∃ now, .trySend (.nonce (.onObservedLanding id now)) ∈ effects

theorem not_reportsLanding {effects : List RecorderEffect} {id : NonceId}
    (silent : sent effects = []) : ¬ ReportsLanding effects id := by
  rintro (⟨value, member⟩ | ⟨now, member⟩)
  · have offered := mem_sent.mpr member
    simp [silent] at offered
  · have offered := mem_sent.mpr member
    simp [silent] at offered

theorem nonceHook_reports {cache : SlotHashCache} {att : TriggerAttempt} {reg : RegisterEvent}
    {m : MatchEvent} {now : Instant} {id : NonceId} (mode : cfg.nonceMode = true)
    (registered : att.register = some reg) (nonce : reg.nonceId = some id) :
    ReportsLanding (nonceHook cfg (some cache) att m now) id := by
  unfold nonceHook
  simp only [mode, registered, Option.bind_some, nonce]
  cases next : cache.nextNonceForLandedSlot cfg.hashv m.observedSlot 5 with
  | none => exact .inr ⟨now, by simp⟩
  | some found => exact .inl ⟨found.2.2, by simp⟩

/-- **The nonce manager is told of a landing exactly when nothing has ended the
attempt before the match is taken.** In nonce mode an attempt is registered, and not
registered again, and a match of its signature is taken after any other inputs. -/
theorem landing_reported_iff (cfg : Config) (mode : cfg.nonceMode = true) (reg : RegisterEvent)
    (id : NonceId) (nonce : reg.nonceId = some id) (before since : List Input)
    (identifies : ∀ input ∈ before ++ .register reg :: since,
      Identifies (keyOf reg) reg.signature input)
    (unregistered : ∀ other, .register other ∈ since → keyOf other ≠ keyOf reg)
    (m : MatchEvent) (own : m.signature = reg.signature) (cache : SlotHashCache)
    (now : Instant) :
    ReportsLanding (step cfg (runAll (step cfg) {} (before ++ .register reg :: since)).1
        (.matched m (some cache) now)).2 id ↔
      since.any (ends (keyOf reg) reg.signature (reg.triggerObservedAt + cfg.deadline)) =
        false := by
  obtain ⟨linked, held, _⟩ := @run_attempt cfg _ _ _ identifies
  have opened : OpenFor reg (reg.triggerObservedAt + cfg.deadline) (registeredAttempt cfg reg) :=
    ⟨rfl, rfl⟩
  have fate :=
    @runAll_attemptStep_open cfg (keyOf reg) reg.signature _ _ _ opened since unregistered
  have resumed : (runAll (attemptStep cfg (keyOf reg) reg.signature) none
      (before ++ .register reg :: since)).1 =
      (runAll (attemptStep cfg (keyOf reg) reg.signature) (some (registeredAttempt cfg reg))
        since).1 := by
    simp [runAll_append, runAll_cons, attemptStep]
  rw [resumed] at held
  generalize (runAll (step cfg) {} (before ++ .register reg :: since)).1 = recorder at linked held
  cases ended : since.any (ends (keyOf reg) reg.signature
      (reg.triggerObservedAt + cfg.deadline)) with
  | true =>
    rw [ended, if_pos rfl] at fate
    rw [fate] at held
    have unknown : recorder.sigToKey.get m.signature = none := by
      rw [own, linked.known, held]
      rfl
    simp [step, handleMatch_unknown unknown, ReportsLanding]
  | false =>
    rw [ended, if_neg Bool.false_ne_true] at fate
    obtain ⟨att, found, registered, _⟩ := fate
    rw [found] at held
    have known : recorder.sigToKey.get m.signature = some (keyOf reg) := by
      rw [own, linked.known, held]
      rfl
    have told : ReportsLanding (nonceHook cfg (some cache) att m now) id :=
      nonceHook_reports mode registered nonce
    refine iff_of_true ?_ rfl
    rw [step, handleMatch_some known held]
    rcases told with ⟨value, member⟩ | ⟨seen, member⟩
    · exact .inl ⟨value, List.mem_cons_of_mem _ (List.mem_append_left _ member)⟩
    · exact .inr ⟨seen, List.mem_cons_of_mem _ (List.mem_append_left _ member)⟩

/-- The match comes after the deadline sweep, or after an error of the send, and the
nonce manager is not told. -/
theorem lateMatch_unreported :
    ¬ ReportsLanding (step sampleConfig (runAll (step sampleConfig) {}
        [.register sampleRegister, .sweep 90000002000]).1
          (.matched sampleHit.event (some (.new 256)) 90000003000)).2 7 ∧
      ¬ ReportsLanding (step sampleConfig (runAll (step sampleConfig) {}
        [.register sampleRegister, .send sampleFailedSend]).1
          (.matched sampleHit.event (some (.new 256)) 5000)).2 7 := by
  have silent : sent (step sampleConfig (runAll (step sampleConfig) {}
      [.register sampleRegister, .sweep 90000002000]).1
        (.matched sampleHit.event (some (.new 256)) 90000003000)).2 = [] ∧
      sent (step sampleConfig (runAll (step sampleConfig) {}
        [.register sampleRegister, .send sampleFailedSend]).1
          (.matched sampleHit.event (some (.new 256)) 5000)).2 = [] := by
    decide +kernel
  exact ⟨not_reportsLanding silent.1, not_reportsLanding silent.2⟩

/-- A sweep before the deadline and a send that went well end nothing, so the landing is
told. -/
theorem landing_reported_inTime :
    ReportsLanding (step sampleConfig (runAll (step sampleConfig) {}
        ([] ++ .register sampleRegister :: [.sweep 2500, .send sampleSend])).1
          (.matched sampleHit.event (some (.new 256)) 5000)).2 7 :=
  (landing_reported_iff sampleConfig rfl sampleRegister 7 rfl [] [.sweep 2500, .send sampleSend]
    (by simp [Identifies]) (by simp) sampleHit.event rfl (.new 256) 5000).mpr (by decide)

end SenderAnalysis.Recorder

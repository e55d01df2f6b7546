import SenderAnalysis.FanOut.Recorder.Model
import SenderAnalysis.Foundations.Runs

/-!
# The recorder, seen from one attempt

The recorder holds all attempts in one table and finds them by their key and by
their signature. As long as the signature of one attempt is registered for that
attempt only, the table holds of it what a machine of its own would hold
(`attemptStep`), and the rows written for it are the rows of that machine
(`run_attempt`). So what becomes of an attempt depends on its own events and on the
sweeps, in the order in which the recorder takes them, and on nothing else.
-/

set_option autoImplicit false

namespace SenderAnalysis.Recorder

variable (cfg : Config) (key : AttemptKey) (sig : Signature)

/-! ## Rows -/

/-- The row of an attempt that was registered. -/
def rowOf (att : TriggerAttempt) (outcome : FinalOutcome) : List TriggerRecord :=
  (att.register.map fun reg => makeRecord cfg reg att.send att.matched outcome).toList

/-- The rows of one attempt. -/
def ownRecords (effects : List RecorderEffect) : List TriggerRecord :=
  (records effects).filter fun row => (row.triggerId, row.senderId) == key

@[simp] theorem records_nil : records [] = [] := rfl

@[simp] theorem records_append (first second : List RecorderEffect) :
    records (first ++ second) = records first ++ records second := by
  simp [records]

@[simp] theorem records_fetchAdd (counter : Counter) (amount : Nat)
    (rest : List RecorderEffect) : records (.fetchAdd counter amount :: rest) = records rest := rfl

@[simp] theorem records_nonce (operation : NonceManager.Operation) (rest : List RecorderEffect) :
    records (.trySend (.nonce operation) :: rest) = records rest := rfl

@[simp] theorem ownRecords_nil : ownRecords key [] = [] := rfl

@[simp] theorem ownRecords_append (first second : List RecorderEffect) :
    ownRecords key (first ++ second) = ownRecords key first ++ ownRecords key second := by
  simp [ownRecords]

@[simp] theorem ownRecords_fetchAdd (counter : Counter) (amount : Nat)
    (rest : List RecorderEffect) :
    ownRecords key (.fetchAdd counter amount :: rest) = ownRecords key rest := rfl

theorem records_emitRecord (att : TriggerAttempt) (outcome : FinalOutcome) :
    records (emitRecord cfg att outcome) = rowOf cfg att outcome := by
  unfold emitRecord rowOf
  cases att.register with
  | none => rfl
  | some reg => cases outcome <;> rfl

/-- The nonce manager's calls are no rows. -/
theorem records_nonceHook (cache : Option SlotHashCache) (att : TriggerAttempt) (m : MatchEvent)
    (now : Instant) : records (nonceHook cfg cache att m now) = [] := by
  unfold nonceHook
  split
  · split <;> rfl
  · rfl

/-- The row of an attempt belongs to the attempt it was registered for. -/
theorem ownRecords_emitRecord {att : TriggerAttempt} {reg : RegisterEvent}
    (registered : att.register = some reg) (outcome : FinalOutcome) :
    ownRecords key (emitRecord cfg att outcome) =
      if keyOf reg = key then rowOf cfg att outcome else [] := by
  have row : rowOf cfg att outcome = [makeRecord cfg reg att.send att.matched outcome] := by
    simp [rowOf, registered]
  rw [ownRecords, records_emitRecord, row, List.filter_singleton]
  by_cases own : keyOf reg = key
  · have same : ((reg.triggerId, reg.senderId) == key) = true := by simpa [keyOf] using own
    simp [makeRecord, same, own]
  · have other : ((reg.triggerId, reg.senderId) == key) = false := by simpa [keyOf] using own
    simp [makeRecord, other, own]

/-! ## The machine of one attempt -/

/-- An attempt that was just registered. -/
def registeredAttempt (reg : RegisterEvent) : TriggerAttempt where
  register := some reg
  send := none
  matched := none
  deadlineAt := reg.triggerObservedAt + cfg.deadline

/-- One input, seen from one attempt. -/
def attemptStep (att : Option TriggerAttempt) : Input → Option TriggerAttempt × List TriggerRecord
  | .register reg => if keyOf reg = key then (some (registeredAttempt cfg reg), []) else (att, [])
  | .send s =>
      if (s.triggerId, s.senderId) = key then
        match att with
        | none => (none, [])
        | some att =>
            let noted := { att with send := some s }
            if s.outcome.error.isSome then (none, rowOf cfg noted .sendError)
            else (some noted, [])
      else (att, [])
  | .matched m _ _ =>
      if m.signature = sig then
        match att with
        | none => (none, [])
        | some att => (none, rowOf cfg { att with matched := some m } .landed)
      else (att, [])
  | .sweep now =>
      match att with
      | none => (none, [])
      | some att =>
          if att.deadlineAt ≤ now then (none, rowOf cfg att .unknownPending) else (some att, [])

/-- The last flush, seen from one attempt. -/
def attemptFlush (att : Option TriggerAttempt) : List TriggerRecord :=
  (att.map fun att => rowOf cfg att .unknownPending).getD []

/-- The rows of one attempt for the inputs up to the stop. -/
def attemptRows (inputs : List Input) : List TriggerRecord :=
  let before := runAll (attemptStep cfg key sig) none inputs
  before.2 ++ attemptFlush cfg before.1

/-- The registrations among the inputs use the signature for the attempt only. -/
def Identifies : Input → Prop
  | .register reg => keyOf reg = key ↔ reg.signature = sig
  | .send _ | .matched _ _ _ | .sweep _ => True

/-! ## The tables agree on the attempt -/

/-- The signature leads to the attempt while it is open, no other signature does, and
the other attempts have other signatures. -/
structure Linked (recorder : State) : Prop where
  known : recorder.sigToKey.get sig =
    if (recorder.attempts.get key).isSome then some key else none
  alone : ∀ other, recorder.sigToKey.get other = some key → other = sig
  named : ∀ other att, recorder.attempts.get other = some att →
    ∃ reg, att.register = some reg ∧ keyOf reg = other ∧ (other = key ↔ reg.signature = sig)

theorem initial_linked : Linked key sig {} where
  known := by simp
  alone := by simp
  named := by simp

variable {cfg key sig}

/-- The aggregates play no part. -/
theorem Linked.withAgg {recorder : State} (linked : Linked key sig recorder)
    (agg : AggregateState) : Linked key sig { recorder with agg := agg } :=
  ⟨linked.known, linked.alone, linked.named⟩

/-- A new value of an attempt that keeps its registration. -/
theorem Linked.note {recorder : State} (linked : Linked key sig recorder) {other : AttemptKey}
    {att noted : TriggerAttempt} (present : recorder.attempts.get other = some att)
    (same : noted.register = att.register) :
    Linked key sig { recorder with attempts := recorder.attempts.insert other noted } where
  known := by
    have still : (recorder.attempts.insert other noted).get key =
        if key = other then some noted else recorder.attempts.get key :=
      HashTable.get_insert ..
    rw [linked.known, still]
    by_cases own : key = other
    · simp [own, present]
    · simp [own]
  alone := linked.alone
  named := by
    intro next value found
    rw [HashTable.get_insert] at found
    split at found
    · next here =>
      cases found
      rw [here, same]
      exact linked.named other att present
    · exact linked.named next value found

theorem closeAttempt_none {recorder : State} {other : AttemptKey} {outcome : FinalOutcome}
    (absent : recorder.attempts.get other = none) :
    closeAttempt cfg outcome recorder other = (recorder, []) := by
  simp only [closeAttempt, absent]

/-- Ending one attempt: it is gone, its row is written, and the other attempts are as
they were. -/
theorem closeAttempt_linked {recorder : State} (linked : Linked key sig recorder)
    (outcome : FinalOutcome) (other : AttemptKey) :
    Linked key sig (closeAttempt cfg outcome recorder other).1 ∧
      (closeAttempt cfg outcome recorder other).1.attempts.get key =
        (if other = key then none else recorder.attempts.get key) ∧
      ownRecords key (closeAttempt cfg outcome recorder other).2 =
        if other = key then
          ((recorder.attempts.get key).map fun att => rowOf cfg att outcome).getD []
        else [] := by
  cases present : recorder.attempts.get other with
  | none =>
    rw [closeAttempt_none present]
    refine ⟨linked, ?_, ?_⟩
    · split
      · next own => rw [← own, present]
      · rfl
    · split
      · next own => simp [← own, present]
      · rfl
  | some att =>
    obtain ⟨reg, registered, named, own?⟩ := linked.named other att present
    have signed : (closeAttempt cfg outcome recorder other).1.sigToKey =
        recorder.sigToKey.remove reg.signature := by
      simp only [closeAttempt, present, registered]
    have kept : (closeAttempt cfg outcome recorder other).1.attempts =
        recorder.attempts.remove other := by
      simp only [closeAttempt, present, registered]
    have written : (closeAttempt cfg outcome recorder other).2 = emitRecord cfg att outcome := by
      simp only [closeAttempt, present]
    refine ⟨⟨?_, ?_, ?_⟩, ?_, ?_⟩
    · rw [signed, kept, HashTable.get_remove, HashTable.get_remove, linked.known]
      by_cases own : other = key
      · simp [own, own?.mp own]
      · have apart : sig ≠ reg.signature := fun same => own (own?.mpr same.symm)
        simp [Ne.symm own, apart]
    · intro signature found
      rw [signed, HashTable.get_remove] at found
      split at found
      · simp at found
      · exact linked.alone signature found
    · intro next value found
      rw [kept, HashTable.get_remove] at found
      split at found
      · simp at found
      · exact linked.named next value found
    · rw [kept, HashTable.get_remove]
      by_cases own : other = key
      · simp [own]
      · simp [own, Ne.symm own]
    · rw [written, ownRecords_emitRecord cfg key registered, named]
      by_cases own : other = key
      · subst own
        simp [present]
      · simp [own]

/-- Ending several attempts. -/
theorem runAll_closeAttempt {recorder : State} (linked : Linked key sig recorder)
    (outcome : FinalOutcome) (keys : List AttemptKey) :
    Linked key sig (runAll (closeAttempt cfg outcome) recorder keys).1 ∧
      (runAll (closeAttempt cfg outcome) recorder keys).1.attempts.get key =
        (if key ∈ keys then none else recorder.attempts.get key) ∧
      ownRecords key (runAll (closeAttempt cfg outcome) recorder keys).2 =
        if key ∈ keys then
          ((recorder.attempts.get key).map fun att => rowOf cfg att outcome).getD []
        else [] := by
  induction keys generalizing recorder with
  | nil => exact ⟨linked, by simp, by simp⟩
  | cons first rest ih =>
    obtain ⟨linked', found, written⟩ := @closeAttempt_linked cfg _ _ _ linked outcome first
    obtain ⟨linked'', found', written'⟩ := ih linked'
    rw [runAll_cons]
    refine ⟨linked'', ?_, ?_⟩
    · rw [found', found]
      by_cases own : first = key
      · simp [own]
      · by_cases later : key ∈ rest <;> simp [own, later, Ne.symm own]
    · rw [ownRecords_append, written, written', found]
      by_cases own : first = key
      · simp [own]
      · by_cases later : key ∈ rest <;> simp [own, later, Ne.symm own]

theorem mem_expired {recorder : State} {now : Instant} :
    key ∈ expired recorder now ↔
      ∃ att, recorder.attempts.get key = some att ∧ att.deadlineAt ≤ now := by
  simp only [expired, List.mem_map, List.mem_filter, decide_eq_true_eq]
  constructor
  · rintro ⟨⟨_, att⟩, ⟨member, late⟩, rfl⟩
    exact ⟨att, HashTable.mem_entries.mp member, late⟩
  · rintro ⟨att, found, late⟩
    exact ⟨⟨key, att⟩, ⟨HashTable.mem_entries.mpr found, late⟩, rfl⟩

theorem mem_open {recorder : State} :
    key ∈ recorder.attempts.entries.map Sigma.fst ↔ (recorder.attempts.get key).isSome := by
  rw [Option.isSome_iff_exists]
  constructor
  · intro member
    obtain ⟨⟨_, att⟩, present, rfl⟩ := List.mem_map.mp member
    exact ⟨att, HashTable.mem_entries.mp present⟩
  · rintro ⟨att, found⟩
    exact List.mem_map.mpr ⟨⟨key, att⟩, HashTable.mem_entries.mpr found, rfl⟩

/-! ## Runs -/

theorem handleRegister_linked {recorder : State} (linked : Linked key sig recorder)
    {reg : RegisterEvent} (identified : keyOf reg = key ↔ reg.signature = sig) :
    Linked key sig (handleRegister cfg recorder reg) where
  known := by
    simp only [handleRegister, HashTable.get_insert, linked.known]
    by_cases own : keyOf reg = key
    · simp [own, identified.mp own]
    · have apart : sig ≠ reg.signature := fun same => own (identified.mpr same.symm)
      simp [Ne.symm own, apart]
  alone := by
    intro other found
    simp only [handleRegister, HashTable.get_insert] at found
    split at found
    · next same =>
      rw [same]
      exact identified.mp (Option.some.inj found)
    · exact linked.alone other found
  named := by
    intro other att found
    simp only [handleRegister, HashTable.get_insert] at found
    split at found
    · next same =>
      cases found
      exact ⟨reg, rfl, same.symm, by rw [same]; exact identified⟩
    · exact linked.named other att found

section Handlers

variable {recorder : State} {att : TriggerAttempt} {other : AttemptKey} {s : SendEvent}
  {m : MatchEvent} {cache : Option SlotHashCache} {now : Instant}

theorem handleSend_none (absent : recorder.attempts.get (s.triggerId, s.senderId) = none) :
    handleSend cfg recorder s = (recorder, []) := by
  simp only [handleSend, absent]

/-- The recorder with a new value of an attempt. -/
def noted (recorder : State) (other : AttemptKey) (att : TriggerAttempt) : State :=
  { recorder with attempts := recorder.attempts.insert other att }

theorem noted_get (key : AttemptKey) :
    (noted recorder other att).attempts.get key =
      if key = other then some att else recorder.attempts.get key :=
  HashTable.get_insert ..

theorem handleSend_some
    (present : recorder.attempts.get (s.triggerId, s.senderId) = some att) :
    handleSend cfg recorder s =
      if s.outcome.error.isSome then
        closeAttempt cfg .sendError
          (noted recorder (s.triggerId, s.senderId) { att with send := some s })
          (s.triggerId, s.senderId)
      else (noted recorder (s.triggerId, s.senderId) { att with send := some s }, []) := by
  simp only [handleSend, present, noted]

theorem handleMatch_unknown (unknown : recorder.sigToKey.get m.signature = none) :
    handleMatch cfg recorder m cache now = (recorder, []) := by
  simp only [handleMatch, unknown]

theorem handleMatch_orphan (known : recorder.sigToKey.get m.signature = some other)
    (absent : recorder.attempts.get other = none) :
    handleMatch cfg recorder m cache now =
      ({ recorder with sigToKey := recorder.sigToKey.remove m.signature }, []) := by
  simp only [handleMatch, known, absent]

theorem handleMatch_some (known : recorder.sigToKey.get m.signature = some other)
    (present : recorder.attempts.get other = some att) :
    handleMatch cfg recorder m cache now =
      ((closeAttempt cfg .landed (noted recorder other { att with matched := some m }) other).1,
        nonceHook cfg cache att m now ++
          (closeAttempt cfg .landed (noted recorder other { att with matched := some m })
            other).2) := by
  simp only [handleMatch, known, present, noted]

/-- A registered signature is the attempt's exactly when it leads to the attempt. -/
theorem Linked.signature_iff (linked : Linked key sig recorder)
    (known : recorder.sigToKey.get m.signature = some other) :
    m.signature = sig ↔ other = key := by
  constructor
  · intro own
    have opened := linked.known
    rw [← own, known] at opened
    split at opened
    · exact Option.some.inj opened
    · simp at opened
  · rintro rfl
    exact linked.alone m.signature known

/-- The signature of an open attempt is registered. -/
theorem Linked.closed_of_unknown (linked : Linked key sig recorder)
    (unknown : recorder.sigToKey.get sig = none) : recorder.attempts.get key = none := by
  have closed := linked.known
  rw [unknown] at closed
  cases present : recorder.attempts.get key with
  | none => rfl
  | some att => simp [present] at closed

end Handlers

/-- The outcome of a send, seen from one attempt. -/
theorem handleSend_attempt {recorder : State} (linked : Linked key sig recorder)
    (s : SendEvent) :
    Linked key sig (handleSend cfg recorder s).1 ∧
      (handleSend cfg recorder s).1.attempts.get key =
        (attemptStep cfg key sig (recorder.attempts.get key) (.send s)).1 ∧
      ownRecords key (handleSend cfg recorder s).2 =
        (attemptStep cfg key sig (recorder.attempts.get key) (.send s)).2 := by
  simp only [attemptStep]
  cases present : recorder.attempts.get (s.triggerId, s.senderId) with
  | none =>
    rw [handleSend_none present]
    by_cases own : (s.triggerId, s.senderId) = key
    · rw [own] at present
      exact ⟨linked, by simp [present], by simp [present]⟩
    · exact ⟨linked, by simp [own], by simp [own]⟩
  | some att =>
    rw [handleSend_some present]
    have linked' : Linked key sig
        (noted recorder (s.triggerId, s.senderId) { att with send := some s }) :=
      linked.note present rfl
    by_cases failed : s.outcome.error.isSome
    · obtain ⟨closed, gone, written⟩ :=
        @closeAttempt_linked cfg key sig _ linked' .sendError (s.triggerId, s.senderId)
      rw [if_pos failed]
      refine ⟨closed, ?_, ?_⟩
      · rw [gone, noted_get]
        by_cases own : (s.triggerId, s.senderId) = key
        · subst own
          simp [present, failed]
        · simp [own, Ne.symm own]
      · rw [written, noted_get]
        by_cases own : (s.triggerId, s.senderId) = key
        · subst own
          simp [present, failed]
        · simp [own]
    · rw [if_neg failed]
      refine ⟨linked', ?_, ?_⟩
      · rw [noted_get]
        by_cases own : (s.triggerId, s.senderId) = key
        · subst own
          simp [present, failed]
        · simp [own, Ne.symm own]
      · by_cases own : (s.triggerId, s.senderId) = key
        · subst own
          simp [present, failed]
        · simp [own]

/-- A match, seen from one attempt. -/
theorem handleMatch_attempt {recorder : State} (linked : Linked key sig recorder)
    (m : MatchEvent) (cache : Option SlotHashCache) (now : Instant) :
    Linked key sig (handleMatch cfg recorder m cache now).1 ∧
      (handleMatch cfg recorder m cache now).1.attempts.get key =
        (attemptStep cfg key sig (recorder.attempts.get key) (.matched m cache now)).1 ∧
      ownRecords key (handleMatch cfg recorder m cache now).2 =
        (attemptStep cfg key sig (recorder.attempts.get key) (.matched m cache now)).2 := by
  simp only [attemptStep]
  cases known : recorder.sigToKey.get m.signature with
  | none =>
    rw [handleMatch_unknown known]
    by_cases own : m.signature = sig
    · have closed := linked.closed_of_unknown (own ▸ known)
      exact ⟨linked, by simp [closed], by simp [closed]⟩
    · exact ⟨linked, by simp [own], by simp [own]⟩
  | some other =>
    have same := linked.signature_iff known
    cases present : recorder.attempts.get other with
    | none =>
      rw [handleMatch_orphan known present]
      have apart : m.signature ≠ sig := by
        intro own
        have opened := linked.known
        rw [← own, known, ← same.mp own, present] at opened
        simp at opened
      refine ⟨⟨?_, ?_, linked.named⟩, by simp [apart], by simp [apart]⟩
      · rw [HashTable.get_remove, if_neg (Ne.symm apart), linked.known]
      · intro signature found
        exact linked.alone signature (HashTable.get_of_get_remove found)
    | some att =>
      rw [handleMatch_some known present]
      have linked' : Linked key sig (noted recorder other { att with matched := some m }) :=
        linked.note present rfl
      obtain ⟨closed, gone, written⟩ := @closeAttempt_linked cfg key sig _ linked' .landed other
      have silent : ownRecords key (nonceHook cfg cache att m now) = [] := by
        rw [ownRecords, records_nonceHook]
        rfl
      refine ⟨closed, ?_, ?_⟩
      · rw [gone, noted_get]
        by_cases own : other = key
        · subst own
          simp [same.mpr rfl, present]
        · have apart : m.signature ≠ sig := fun here => own (same.mp here)
          simp [own, Ne.symm own, apart]
      · rw [ownRecords_append, silent, List.nil_append, written, noted_get]
        by_cases own : other = key
        · subst own
          simp [same.mpr rfl, present]
        · have apart : m.signature ≠ sig := fun here => own (same.mp here)
          simp [own, apart]

/-- **One input does to an attempt what its machine does.** -/
theorem step_attempt {recorder : State} (linked : Linked key sig recorder) {input : Input}
    (identifies : Identifies key sig input) :
    Linked key sig (step cfg recorder input).1 ∧
      (step cfg recorder input).1.attempts.get key =
        (attemptStep cfg key sig (recorder.attempts.get key) input).1 ∧
      ownRecords key (step cfg recorder input).2 =
        (attemptStep cfg key sig (recorder.attempts.get key) input).2 := by
  cases input with
  | register reg =>
    refine ⟨handleRegister_linked (linked.withAgg _) identifies, ?_, ?_⟩
    · simp only [step, handleRegister, attemptStep, HashTable.get_insert]
      by_cases own : keyOf reg = key
      · simp [own, registeredAttempt]
      · simp [own, Ne.symm own]
    · simp only [step, attemptStep]
      split <;> rfl
  | send s => exact handleSend_attempt (linked.withAgg _) s
  | matched m cache now => exact handleMatch_attempt linked m cache now
  | sweep now =>
    obtain ⟨swept, gone, written⟩ :=
      @runAll_closeAttempt cfg key sig _ linked .unknownPending (expired recorder now)
    refine ⟨swept, gone.trans ?_, written.trans ?_⟩ <;>
    · simp only [mem_expired, attemptStep]
      cases present : recorder.attempts.get key with
      | none => simp
      | some att => by_cases late : att.deadlineAt ≤ now <;> simp [late]

/-- **What the recorder holds of an attempt and the rows it writes for it are those
of the machine of the attempt.** -/
theorem run_attempt {inputs : List Input}
    (identifies : ∀ input ∈ inputs, Identifies key sig input) :
    Linked key sig (runAll (step cfg) {} inputs).1 ∧
      (runAll (step cfg) {} inputs).1.attempts.get key =
        (runAll (attemptStep cfg key sig) none inputs).1 ∧
      ownRecords key (runAll (step cfg) {} inputs).2 =
        (runAll (attemptStep cfg key sig) none inputs).2 := by
  induction inputs using List.reverseRecOn with
  | nil => exact ⟨initial_linked key sig, by simp, rfl⟩
  | append_singleton past input ih =>
    obtain ⟨linked, held, written⟩ := ih fun earlier member =>
      identifies earlier (List.mem_append_left _ member)
    obtain ⟨linked', held', written'⟩ :=
      @step_attempt cfg _ _ _ linked input (identifies input (by simp))
    rw [runAll_concat, runAll_concat]
    refine ⟨linked', ?_, ?_⟩
    · rw [held', held]
    · rw [ownRecords_append, written, written', held]

/-- **The rows of an attempt, with the last flush, are those of its machine.** -/
theorem runLoop_attempt {inputs : List Input}
    (identifies : ∀ input ∈ inputs, Identifies key sig input) :
    ownRecords key (runLoop cfg inputs).2 = attemptRows cfg key sig inputs := by
  obtain ⟨linked, held, written⟩ := @run_attempt cfg key sig inputs identifies
  obtain ⟨_, _, flushed⟩ := @runAll_closeAttempt cfg key sig _ linked .unknownPending
    ((runAll (step cfg) {} inputs).1.attempts.entries.map Sigma.fst)
  rw [runLoop, ownRecords_append, written, attemptRows]
  congr 1
  refine flushed.trans ?_
  simp only [mem_open, held, attemptFlush]
  cases (runAll (attemptStep cfg key sig) none inputs).1 with
  | none => rfl
  | some att => rfl

end SenderAnalysis.Recorder

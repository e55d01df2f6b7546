import SenderAnalysis.FanOut.Recorder.Conservation

/-!
# The fates of registrations

What becomes of a registration can be read off the inputs that follow it. The first of
them to end its attempt decides: an error of its send, a match, or a sweep at its deadline
or after it. An attempt that nothing ends is pending.

In a run whose registrations share no attempt and no signature the rows are the
registrations, each with the outcome that is its fate (`records_fates`).
-/

set_option autoImplicit false

namespace SenderAnalysis.Recorder

variable {cfg : Config} {recorder : State} {inputs : List Input} {effects : List RecorderEffect}
  {key : AttemptKey} {sig : Signature} {outcome : FinalOutcome}

/-! ## Fates -/

/-- The outcome of an attempt by the first input that ends it. -/
def endedBy : Option Input → FinalOutcome
  | some (.send _) => .sendError
  | some (.matched _ _ _) => .landed
  | some (.register _) | some (.sweep _) | none => .unknownPending

/-- The fate of a registration among the inputs that follow it. -/
def fateOf (cfg : Config) (reg : RegisterEvent) (since : List Input) : FinalOutcome :=
  endedBy (since.find? (ends (keyOf reg) reg.signature (reg.triggerObservedAt + cfg.deadline)))

/-- The registrations among the inputs, each with its fate. -/
def fates (cfg : Config) : List Input → List (RegisterEvent × FinalOutcome)
  | [] => []
  | .register reg :: rest => (reg, fateOf cfg reg rest) :: fates cfg rest
  | .send _ :: rest => fates cfg rest
  | .matched _ _ _ :: rest => fates cfg rest
  | .sweep _ :: rest => fates cfg rest

theorem fates_registrations (cfg : Config) (inputs : List Input) :
    (fates cfg inputs).map Prod.fst = registrations inputs := by
  induction inputs with
  | nil => rfl
  | cons input rest ih =>
    cases input with
    | register reg => exact congrArg (reg :: ·) ih
    | send s => exact ih
    | matched m cache now => exact ih
    | sweep now => exact ih

/-- A registration has the fate that the inputs after it give it. -/
theorem exists_of_mem_fates {fate : RegisterEvent × FinalOutcome}
    (mem : fate ∈ fates cfg inputs) :
    ∃ before since, inputs = before ++ .register fate.1 :: since ∧
      fate.2 = fateOf cfg fate.1 since := by
  induction inputs with
  | nil => cases mem
  | cons input rest ih =>
    have later : fate ∈ fates cfg rest → ∃ before since,
        input :: rest = before ++ .register fate.1 :: since ∧
          fate.2 = fateOf cfg fate.1 since := by
      intro there
      obtain ⟨before, since, rfl, same⟩ := ih there
      exact ⟨input :: before, since, rfl, same⟩
    cases input with
    | register reg =>
      rcases List.mem_cons.mp mem with rfl | there
      · exact ⟨[], rest, rfl, rfl⟩
      · exact later there
    | send s => exact later mem
    | matched m cache now => exact later mem
    | sweep now => exact later mem

/-! ## One attempt -/

section Attempt

variable {reg : RegisterEvent} {deadlineAt : Instant} {att : TriggerAttempt}

/-- The row of an attempt that was registered has the outcome it ends with. -/
theorem rowOf_outcomes (registered : att.register = some reg) (outcome : FinalOutcome) :
    (rowOf cfg att outcome).map TriggerRecord.finalOutcome = [outcome] := by
  simp [rowOf, registered, makeRecord]

/-- An input that ends an open attempt writes its row; another one writes none. -/
theorem attemptStep_outcomes (isOpen : OpenFor reg deadlineAt att) {input : Input}
    (unregistered : ∀ other, input = .register other → keyOf other ≠ key) :
    (attemptStep cfg key sig (some att) input).2.map TriggerRecord.finalOutcome =
      if ends key sig deadlineAt input then [endedBy (some input)] else [] := by
  obtain ⟨registered, rfl⟩ := isOpen
  cases input with
  | register other => simp [ends, attemptStep, unregistered other rfl]
  | send s =>
    by_cases own : (s.triggerId, s.senderId) = key
    · by_cases failed : s.outcome.error.isSome
      · simp [ends, attemptStep, own, failed, endedBy, rowOf, registered, makeRecord]
      · simp [ends, attemptStep, own, failed]
    · simp [ends, attemptStep, own]
  | matched m cache now =>
    by_cases own : m.signature = sig
    · simp [ends, attemptStep, own, endedBy, rowOf, registered, makeRecord]
    · simp [ends, attemptStep, own]
  | sweep now =>
    by_cases late : att.deadlineAt ≤ now
    · simp [ends, attemptStep, late, endedBy, rowOf, registered, makeRecord]
    · simp [ends, attemptStep, late]

/-- **The one row of an open attempt has the outcome of the first input that ends it.** -/
theorem runAll_attemptStep_outcomes (isOpen : OpenFor reg deadlineAt att)
    (unregistered : ∀ other, .register other ∈ inputs → keyOf other ≠ key) :
    ((runAll (attemptStep cfg key sig) (some att) inputs).2 ++
        attemptFlush cfg (runAll (attemptStep cfg key sig) (some att) inputs).1).map
          TriggerRecord.finalOutcome =
      [endedBy (inputs.find? (ends key sig deadlineAt))] := by
  induction inputs generalizing att with
  | nil => exact rowOf_outcomes isOpen.1 .unknownPending
  | cons input rest ih =>
    have later : ∀ other, .register other ∈ rest → keyOf other ≠ key := fun other member =>
      unregistered other (List.mem_cons_of_mem _ member)
    have first : ∀ other, input = .register other → keyOf other ≠ key := fun other same =>
      unregistered other (same ▸ List.mem_cons_self ..)
    have written := @attemptStep_outcomes cfg key sig reg _ _ isOpen input first
    have stays := @attemptStep_open cfg key sig reg _ _ isOpen input first
    rw [runAll_cons, List.append_assoc, List.map_append, written]
    cases ended : ends key sig deadlineAt input with
    | true =>
      rw [ended, if_pos rfl] at stays
      rw [stays, runAll_attemptStep_closed later, List.find?_cons_of_pos ended]
      simp [attemptFlush]
    | false =>
      rw [ended, if_neg Bool.false_ne_true] at stays
      obtain ⟨next, found, isOpen'⟩ := stays
      rw [found, List.find?_cons_of_neg (by simp [ended])]
      simpa using ih isOpen' later

end Attempt

/-- The row of a registration has its fate as outcome. -/
theorem runLoop_fate (distinct : Distinct inputs) {reg : RegisterEvent}
    {before since : List Input} (split : inputs = before ++ .register reg :: since) :
    (ownRecords (keyOf reg) (runLoop cfg inputs).2).map TriggerRecord.finalOutcome =
      [fateOf cfg reg since] := by
  have member : reg ∈ registrations inputs := mem_registrations.mpr (by simp [split])
  rw [runLoop_attempt (identifies_of_distinct distinct (fun _ => id) member)]
  obtain ⟨earlier, later⟩ := (split ▸ distinct).around
  have opened : OpenFor reg (reg.triggerObservedAt + cfg.deadline) (registeredAttempt cfg reg) :=
    ⟨rfl, rfl⟩
  have outcomes :=
    @runAll_attemptStep_outcomes cfg since (keyOf reg) reg.signature _ _ _ opened later
  rw [attemptRows, split, runAll_append, runAll_attemptStep_closed earlier, runAll_cons]
  simpa [attemptStep, fateOf] using outcomes

/-! ## No other rows -/

/-- The attempt a row is of. -/
def rowKey (row : TriggerRecord) : AttemptKey := (row.triggerId, row.senderId)

/-- The row is of a registration that the recorder holds. -/
def OfOpen (recorder : State) (row : TriggerRecord) : Prop :=
  ∃ key att reg, recorder.attempts.get key = some att ∧ att.register = some reg ∧
    rowKey row = keyOf reg

theorem closeAttempt_ofOpen {row : TriggerRecord}
    (mem : row ∈ records (closeAttempt cfg outcome recorder key).2) : OfOpen recorder row := by
  cases present : recorder.attempts.get key with
  | none => simp [closeAttempt_none present] at mem
  | some att =>
    have written : (closeAttempt cfg outcome recorder key).2 = emitRecord cfg att outcome := by
      simp only [closeAttempt, present]
    rw [written, records_emitRecord, rowOf] at mem
    obtain ⟨reg, registered, rfl⟩ := by simpa using mem
    exact ⟨key, att, reg, present, registered, rfl⟩

/-- Ending an attempt opens none. -/
theorem get_of_closeAttempt {other : AttemptKey} {att : TriggerAttempt}
    (found : (closeAttempt cfg outcome recorder key).1.attempts.get other = some att) :
    recorder.attempts.get other = some att := by
  cases present : recorder.attempts.get key with
  | none => rwa [closeAttempt_none present] at found
  | some opened =>
    have kept : (closeAttempt cfg outcome recorder key).1.attempts =
        recorder.attempts.remove key := by
      simp only [closeAttempt, present]
      cases opened.register <;> rfl
    rw [kept] at found
    exact HashTable.get_of_get_remove found

theorem closeAll_ofOpen {row : TriggerRecord} {keys : List AttemptKey}
    (mem : row ∈ records (runAll (closeAttempt cfg outcome) recorder keys).2) :
    OfOpen recorder row := by
  induction keys generalizing recorder with
  | nil => cases mem
  | cons first rest ih =>
    rw [runAll_cons, records_append] at mem
    rcases List.mem_append.mp mem with here | there
    · exact closeAttempt_ofOpen here
    · obtain ⟨key, att, reg, found, registered, own⟩ := ih there
      exact ⟨key, att, reg, get_of_closeAttempt found, registered, own⟩

/-- A new value of an attempt keeps its registration. -/
theorem OfOpen.of_noted {row : TriggerRecord} {att next : TriggerAttempt}
    (ofOpen : OfOpen (noted recorder key next) row)
    (present : recorder.attempts.get key = some att) (same : next.register = att.register) :
    OfOpen recorder row := by
  obtain ⟨other, found, reg, here, registered, own⟩ := ofOpen
  rw [noted_get] at here
  split at here
  · cases here
    exact ⟨key, att, reg, present, same ▸ registered, own⟩
  · exact ⟨other, found, reg, here, registered, own⟩

/-- **Every row that an input writes is of an attempt that was open.** -/
theorem step_ofOpen {input : Input} {row : TriggerRecord}
    (mem : row ∈ records (step cfg recorder input).2) : OfOpen recorder row := by
  cases input with
  | register reg => cases mem
  | send s =>
    rw [step, records_fetchAdd] at mem
    cases present : recorder.attempts.get (s.triggerId, s.senderId) with
    | none =>
      rw [@handleSend_none cfg { recorder with agg := recorder.agg.recordSend s } s present] at mem
      cases mem
    | some att =>
      rw [@handleSend_some cfg { recorder with agg := recorder.agg.recordSend s } att s present]
        at mem
      split at mem
      · exact (closeAttempt_ofOpen mem).of_noted present rfl
      · cases mem
  | matched m cache now =>
    rw [step, records_fetchAdd] at mem
    cases known : recorder.sigToKey.get m.signature with
    | none =>
      rw [handleMatch_unknown known] at mem
      cases mem
    | some other =>
      cases present : recorder.attempts.get other with
      | none =>
        rw [handleMatch_orphan known present] at mem
        cases mem
      | some att =>
        rw [handleMatch_some known present, records_append, records_nonceHook, List.nil_append]
          at mem
        exact (closeAttempt_ofOpen mem).of_noted present rfl
  | sweep now => exact closeAll_ofOpen mem

/-- Every row of a run is of a registration. -/
theorem rowKey_mem (distinct : Distinct inputs) {row : TriggerRecord}
    (mem : row ∈ records (runLoop cfg inputs).2) :
    ∃ reg ∈ registrations inputs, rowKey row = keyOf reg := by
  have held : ∀ {past : List Input}, Distinct past →
      OfOpen (runAll (step cfg) {} past).1 row →
        ∃ reg ∈ registrations past, rowKey row = keyOf reg := by
    rintro past distinct ⟨key, att, reg, present, registered, own⟩
    obtain ⟨other, among, registered', _⟩ :=
      (@run_sound cfg past distinct).consistent.registered key att present
    rw [registered] at registered'
    cases registered'
    exact ⟨reg, among, own⟩
  have before : row ∈ records (runAll (step cfg) {} inputs).2 →
      ∃ reg ∈ registrations inputs, rowKey row = keyOf reg := by
    clear mem
    induction inputs using List.reverseRecOn with
    | nil => exact fun mem => by cases mem
    | append_singleton past input ih =>
      intro mem
      rw [runAll_concat, records_append] at mem
      have found : ∃ reg ∈ registrations past, rowKey row = keyOf reg := by
        rcases List.mem_append.mp mem with earlier | now
        · exact ih distinct.of_append earlier
        · exact held distinct.of_append (step_ofOpen now)
      obtain ⟨reg, among, own⟩ := found
      rw [registrations_append]
      exact ⟨reg, List.mem_append_left _ among, own⟩
  rw [runLoop, records_append] at mem
  rcases List.mem_append.mp mem with here | flushed
  · exact before here
  · exact held distinct (closeAll_ofOpen flushed)

/-! ## The rows are the fates -/

/-- The attempts of the registrations are distinct. -/
theorem fates_keys_nodup (distinct : Distinct inputs) :
    ((fates cfg inputs).map fun fate => keyOf fate.1).Nodup := by
  have keys : ((fates cfg inputs).map fun fate => keyOf fate.1) =
      (registrations inputs).map keyOf := by
    rw [← fates_registrations cfg inputs, List.map_map]
    rfl
  rw [keys, List.Nodup, List.pairwise_map]
  exact distinct.imp And.left

/-- An attempt has at most one row. -/
theorem records_keys_nodup (distinct : Distinct inputs) :
    ((records (runLoop cfg inputs).2).map rowKey).Nodup := by
  rw [List.nodup_iff_count_le_one]
  intro key
  have own : ((records (runLoop cfg inputs).2).map rowKey).count key =
      (ownRecords key (runLoop cfg inputs).2).length := by
    rw [List.count, List.countP_map, ownRecords, List.countP_eq_length_filter]
    rfl
  rw [own]
  by_cases registered : ∃ reg ∈ registrations inputs, keyOf reg = key
  · obtain ⟨reg, among, rfl⟩ := registered
    obtain ⟨row, only, _⟩ := @runLoop_row cfg inputs distinct reg among
    rw [only, List.length_singleton]
  · have none' : ownRecords key (runLoop cfg inputs).2 = [] := by
      apply List.filter_eq_nil_iff.mpr
      intro row mem same
      obtain ⟨reg, among, own'⟩ := rowKey_mem distinct mem
      exact registered ⟨reg, among, own'.symm.trans (eq_of_beq same)⟩
    rw [none']
    exact Nat.zero_le _

/-- **The rows of a run are its registrations, each with its fate.** -/
theorem records_fates (cfg : Config) (inputs : List Input) (distinct : Distinct inputs) :
    ((records (runLoop cfg inputs).2).map fun row => (rowKey row, row.finalOutcome)).Perm
      ((fates cfg inputs).map fun fate => (keyOf fate.1, fate.2)) := by
  have rowsNodup : ((records (runLoop cfg inputs).2).map fun row =>
      (rowKey row, row.finalOutcome)).Nodup := by
    apply List.Nodup.of_map Prod.fst
    rw [List.map_map]
    exact records_keys_nodup distinct
  have fatesNodup : ((fates cfg inputs).map fun fate => (keyOf fate.1, fate.2)).Nodup := by
    apply List.Nodup.of_map Prod.fst
    rw [List.map_map]
    exact fates_keys_nodup distinct
  have ownRow : ∀ fate ∈ fates cfg inputs,
      (ownRecords (keyOf fate.1) (runLoop cfg inputs).2).map TriggerRecord.finalOutcome =
        [fate.2] := by
    intro fate among
    obtain ⟨before, since, split, same⟩ := exists_of_mem_fates among
    rw [same]
    exact runLoop_fate distinct split
  rw [List.perm_ext_iff_of_nodup rowsNodup fatesNodup]
  intro pair
  rw [List.mem_map, List.mem_map]
  constructor
  · rintro ⟨row, mem, rfl⟩
    obtain ⟨reg, among, own⟩ := rowKey_mem distinct mem
    rw [← fates_registrations cfg inputs] at among
    obtain ⟨fate, fated, rfl⟩ := List.mem_map.mp among
    have here : row ∈ ownRecords (keyOf fate.1) (runLoop cfg inputs).2 :=
      List.mem_filter.mpr ⟨mem, beq_iff_eq.mpr own⟩
    have outcome : row.finalOutcome ∈ (ownRecords (keyOf fate.1) (runLoop cfg inputs).2).map
        TriggerRecord.finalOutcome := List.mem_map_of_mem here
    rw [ownRow fate fated, List.mem_singleton] at outcome
    exact ⟨fate, fated, by rw [own, outcome]⟩
  · rintro ⟨fate, fated, rfl⟩
    obtain ⟨row, here, outcome⟩ : ∃ row ∈ ownRecords (keyOf fate.1) (runLoop cfg inputs).2,
        row.finalOutcome = fate.2 := by
      apply List.mem_map.mp
      rw [ownRow fate fated]
      exact List.mem_singleton_self _
    obtain ⟨mem, own⟩ := List.mem_filter.mp here
    exact ⟨row, mem, by rw [outcome, ← eq_of_beq own]; rfl⟩

end SenderAnalysis.Recorder

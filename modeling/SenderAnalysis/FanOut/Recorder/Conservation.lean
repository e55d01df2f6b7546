import SenderAnalysis.FanOut.Recorder.Landings

/-!
# Conservation in the recorder

Every registration ends in exactly one row. As long as no two registrations share
their attempt or their signature, the two tables of the recorder are inverse to each
other (`Consistent`), no open attempt has a match, and the counters add up: what was
registered has a row or is still open, and the counts of the senders sum to those of
the run (`Balanced`). Each handler, each sweep and the last flush keep all of this
(`Sound.step`, `runLoop_sound`).
-/

set_option autoImplicit false

namespace SenderAnalysis.Recorder

variable {cfg : Config} {recorder : State} {inputs : List Input} {effects : List RecorderEffect}
  {key : AttemptKey} {outcome : FinalOutcome}

/-! ## Registrations -/

def Input.register? : Input → Option RegisterEvent
  | .register reg => some reg
  | .send _ | .matched _ _ _ | .sweep _ => none

/-- The registrations among the inputs. -/
def registrations (inputs : List Input) : List RegisterEvent := inputs.filterMap Input.register?

/-- Two registrations with different attempts and different signatures. -/
def ShareNothing (first second : RegisterEvent) : Prop :=
  keyOf first ≠ keyOf second ∧ first.signature ≠ second.signature

instance : DecidableRel ShareNothing := fun _ _ => inferInstanceAs (Decidable (_ ∧ _))

instance : Std.Symm ShareNothing := ⟨fun _ _ apart => ⟨apart.1.symm, apart.2.symm⟩⟩

/-- No two registrations share their attempt or their signature. -/
def Distinct (inputs : List Input) : Prop := (registrations inputs).Pairwise ShareNothing

instance (inputs : List Input) : Decidable (Distinct inputs) :=
  inferInstanceAs (Decidable (List.Pairwise _ _))

theorem registrations_append (first second : List Input) :
    registrations (first ++ second) = registrations first ++ registrations second :=
  List.filterMap_append

theorem mem_registrations {reg : RegisterEvent} :
    reg ∈ registrations inputs ↔ .register reg ∈ inputs := by
  rw [registrations, List.mem_filterMap]
  constructor
  · rintro ⟨input, member, registers⟩
    cases input with
    | register other => simpa [← Option.some.inj registers] using member
    | send | matched | sweep => cases registers
  · exact fun member => ⟨_, member, rfl⟩

theorem Distinct.of_append {past rest : List Input} (distinct : Distinct (past ++ rest)) :
    Distinct past := by
  rw [Distinct, registrations_append] at distinct
  exact (List.pairwise_append.mp distinct).1

/-- A new registration shares nothing with the earlier ones. -/
theorem Distinct.apart {past rest : List Input} {reg other : RegisterEvent}
    (distinct : Distinct (past ++ rest)) (earlier : other ∈ registrations past)
    (later : reg ∈ registrations rest) : ShareNothing other reg := by
  rw [Distinct, registrations_append] at distinct
  exact (List.pairwise_append.mp distinct).2.2 other earlier reg later

/-- The other registrations of a run are of other attempts. -/
theorem Distinct.around {before since : List Input} {reg : RegisterEvent}
    (distinct : Distinct (before ++ .register reg :: since)) :
    (∀ other, .register other ∈ before → keyOf other ≠ keyOf reg) ∧
      ∀ other, .register other ∈ since → keyOf other ≠ keyOf reg := by
  constructor
  · intro other among
    exact (distinct.apart (mem_registrations.mpr among)
      (mem_registrations.mpr (List.mem_cons_self ..))).1
  · intro other among
    rw [← List.singleton_append, ← List.append_assoc] at distinct
    exact (distinct.apart (mem_registrations.mpr (by simp))
      (mem_registrations.mpr among)).1.symm

/-! ## The two tables -/

/-- The signature an attempt was registered with. -/
def signatureOf (recorder : State) (key : AttemptKey) : Option Signature :=
  ((recorder.attempts.get key).bind TriggerAttempt.register).map RegisterEvent.signature

/-- Every open attempt was registered among the inputs, and the table of signatures is
the inverse of the table of attempts. -/
structure Consistent (inputs : List Input) (recorder : State) : Prop where
  registered : ∀ key att, recorder.attempts.get key = some att →
    ∃ reg ∈ registrations inputs, att.register = some reg ∧ keyOf reg = key
  inverse : ∀ sig key, recorder.sigToKey.get sig = some key ↔ signatureOf recorder key = some sig

theorem consistent_initial : Consistent [] {} where
  registered := by simp
  inverse := by simp [signatureOf]

theorem Consistent.withAgg (consistent : Consistent inputs recorder) (agg : AggregateState) :
    Consistent inputs { recorder with agg := agg } :=
  ⟨consistent.registered, consistent.inverse⟩

theorem Consistent.grow (consistent : Consistent inputs recorder) (more : List Input) :
    Consistent (inputs ++ more) recorder where
  registered key att present := by
    obtain ⟨reg, member, facts⟩ := consistent.registered key att present
    exact ⟨reg, by simp [registrations_append, member], facts⟩
  inverse := consistent.inverse

/-- The attempt a registered signature leads to is open. -/
theorem Consistent.known_open (consistent : Consistent inputs recorder) {sig : Signature}
    (known : recorder.sigToKey.get sig = some key) :
    ∃ att, recorder.attempts.get key = some att := by
  have signed := (consistent.inverse sig key).mp known
  cases present : recorder.attempts.get key with
  | none => simp [signatureOf, present] at signed
  | some att => exact ⟨att, rfl⟩

theorem Consistent.note (consistent : Consistent inputs recorder) {att next : TriggerAttempt}
    (present : recorder.attempts.get key = some att) (same : next.register = att.register) :
    Consistent inputs (noted recorder key next) where
  registered other value found := by
    rw [noted_get] at found
    split at found
    · next here =>
      cases found
      rw [here, same]
      exact consistent.registered key att present
    · exact consistent.registered other value found
  inverse sig other := by
    have still : signatureOf (noted recorder key next) other = signatureOf recorder other := by
      rw [signatureOf, noted_get, signatureOf]
      by_cases own : other = key
      · simp [own, present, same]
      · simp [own]
    rw [still]
    exact consistent.inverse sig other

theorem Consistent.register {past : List Input} {reg : RegisterEvent}
    (consistent : Consistent past recorder) (distinct : Distinct (past ++ [.register reg])) :
    Consistent (past ++ [.register reg]) (handleRegister cfg recorder reg) ∧
      recorder.attempts.get (keyOf reg) = none := by
  have own : reg ∈ registrations [.register reg] := by simp [registrations, Input.register?]
  have fresh : recorder.attempts.get (keyOf reg) = none := by
    cases present : recorder.attempts.get (keyOf reg) with
    | none => rfl
    | some att =>
      obtain ⟨other, earlier, _, same⟩ := consistent.registered _ _ present
      exact absurd same (distinct.apart earlier own).1
  have unsigned : ∀ key, signatureOf recorder key ≠ some reg.signature := by
    intro key signed
    cases present : recorder.attempts.get key with
    | none => simp [signatureOf, present] at signed
    | some att =>
      obtain ⟨other, earlier, registered, _⟩ := consistent.registered _ _ present
      have same : other.signature = reg.signature := by
        simpa [signatureOf, present, registered] using signed
      exact absurd same (distinct.apart earlier own).2
  have signature' : ∀ key, signatureOf (handleRegister cfg recorder reg) key =
      if key = keyOf reg then some reg.signature else signatureOf recorder key := by
    intro key
    simp only [signatureOf, handleRegister, HashTable.get_insert]
    by_cases here : key = keyOf reg <;> simp [here]
  refine ⟨⟨?_, ?_⟩, fresh⟩
  · intro key att found
    simp only [handleRegister, HashTable.get_insert] at found
    split at found
    · next here =>
      cases found
      exact ⟨reg, by simp [registrations_append, own], rfl, here.symm⟩
    · obtain ⟨other, earlier, facts⟩ := consistent.registered key att found
      exact ⟨other, by simp [registrations_append, earlier], facts⟩
  · intro sig key
    rw [signature']
    simp only [handleRegister, HashTable.get_insert]
    by_cases here : key = keyOf reg
    · subst here
      by_cases same : sig = reg.signature
      · simp [same]
      · have closed : signatureOf recorder (keyOf reg) = none := by simp [signatureOf, fresh]
        have unknown := consistent.inverse sig (keyOf reg)
        simp [same, Ne.symm same, unknown, closed]
    · by_cases same : sig = reg.signature
      · simp [here, same, unsigned, Ne.symm here]
      · simp only [here, same, if_false]
        exact consistent.inverse sig key

/-- Ending an open attempt: it and its signature are gone, and it is counted. -/
theorem closeAttempt_some {att : TriggerAttempt} {reg : RegisterEvent}
    (present : recorder.attempts.get key = some att) (registered : att.register = some reg) :
    ∃ us, closeAttempt cfg outcome recorder key =
      ({ attempts := recorder.attempts.remove key
         sigToKey := recorder.sigToKey.remove reg.signature
         agg := recorder.agg.recordOutcome reg.triggerId reg.senderId outcome us },
        [countOutcome outcome,
          .trySend (.record (makeRecord cfg reg att.send att.matched outcome))]) := by
  simp only [closeAttempt, present, registered, emitRecord]
  exact ⟨_, rfl⟩

theorem Consistent.close (consistent : Consistent inputs recorder) :
    Consistent inputs (closeAttempt cfg outcome recorder key).1 := by
  cases present : recorder.attempts.get key with
  | none =>
    rw [closeAttempt_none present]
    exact consistent
  | some att =>
    obtain ⟨reg, _, registered, _⟩ := consistent.registered key att present
    obtain ⟨us, closed⟩ := @closeAttempt_some cfg _ _ outcome _ _ present registered
    have signed : signatureOf recorder key = some reg.signature := by
      simp [signatureOf, present, registered]
    rw [closed]
    refine ⟨?_, ?_⟩
    · intro other value found
      exact consistent.registered other value (HashTable.get_of_get_remove found)
    · intro sig other
      have still := consistent.inverse sig other
      have known := (consistent.inverse reg.signature key).mpr signed
      simp only [signatureOf, HashTable.get_remove] at still signed ⊢
      by_cases here : other = key
      · subst here
        by_cases same : sig = reg.signature
        · simp [same]
        · simp [same, Ne.symm same, still, signed]
      · by_cases same : sig = reg.signature
        · subst same
          rw [known] at still
          simpa [here, Ne.symm here] using still
        · simpa [here, same] using still

/-! ## The counts -/

/-- What a sender's counts say of an outcome. -/
def countOf : FinalOutcome → PerSenderStats → Nat
  | .landed => PerSenderStats.landed
  | .sendError => PerSenderStats.sendError
  | .unknownPending => PerSenderStats.unknownPending

/-- What the counts of the run say of an outcome. -/
def totalOf (agg : AggregateState) : FinalOutcome → Nat
  | .landed => agg.attemptsLanded
  | .sendError => agg.attemptsSendError
  | .unknownPending => agg.attemptsUnknownPending

/-- The counter of the rows with an outcome. -/
def counterOf : FinalOutcome → Counter
  | .landed => .recordsLanded
  | .sendError => .recordsSendError
  | .unknownPending => .recordsUnknownPending

/-- The counters agree with the aggregates, the counts of the senders sum to those of
the run, and what was registered has a row or is open. -/
structure Balanced (recorder : State) (effects : List RecorderEffect) : Prop where
  registered : recorder.agg.attemptsTotal = counted .registerEvents effects
  written : ∀ outcome, totalOf recorder.agg outcome = counted (counterOf outcome) effects
  attempts : recorder.agg.perSender.total PerSenderStats.attempts = recorder.agg.attemptsTotal
  outcomes : ∀ outcome,
    recorder.agg.perSender.total (countOf outcome) = totalOf recorder.agg outcome
  settled : recorder.agg.attemptsTotal = totalOf recorder.agg .landed +
    totalOf recorder.agg .sendError + totalOf recorder.agg .unknownPending +
    recorder.attempts.size

theorem balanced_initial : Balanced {} [] where
  registered := rfl
  written outcome := by cases outcome <;> rfl
  attempts := rfl
  outcomes outcome := by cases outcome <;> rfl
  settled := rfl

/-- New counts of a sender change a sum by what they add. -/
theorem perSender_insert {agg : AggregateState} {senderId : UInt8} {stats : PerSenderStats}
    {weight : PerSenderStats → Nat} {amount : Nat} (fresh : weight { senderId := senderId } = 0)
    (adds : weight stats = weight (agg.statsOf senderId) + amount) :
    (agg.perSender.insert senderId stats).total weight =
      agg.perSender.total weight + amount := by
  have inserted := @HashTable.total_insert _ _ _ weight agg.perSender senderId stats
  have old : ((agg.perSender.get senderId).map weight).getD 0 =
      weight (agg.statsOf senderId) := by
    unfold AggregateState.statsOf
    cases agg.perSender.get senderId with
    | none => exact fresh.symm
    | some stats => rfl
  omega

section Counts

variable {agg : AggregateState} {reg : RegisterEvent} {s : SendEvent} {triggerId : TriggerId}
  {senderId : UInt8} {us : Option Nat}

theorem recordRegister_attempts :
    (agg.recordRegister reg).perSender.total PerSenderStats.attempts =
      agg.perSender.total PerSenderStats.attempts + 1 :=
  perSender_insert rfl rfl

theorem recordRegister_outcomes :
    (agg.recordRegister reg).perSender.total (countOf outcome) =
      agg.perSender.total (countOf outcome) :=
  @perSender_insert _ _ _ _ 0 (by cases outcome <;> rfl) (by cases outcome <;> rfl)

/-- The outcome of a send changes no sum but those of its own. -/
theorem recordSend_total {weight : PerSenderStats → Nat}
    (fresh : ∀ senderId, weight { senderId := senderId } = 0)
    (other : ∀ (stats : PerSenderStats) (sum count : Nat),
      weight { stats with sendRttUsSum := sum, sendRttUsCount := count } = weight stats) :
    (agg.recordSend s).perSender.total weight = agg.perSender.total weight := by
  unfold AggregateState.recordSend
  simp only
  split
  · next stats ack known _ =>
    refine @perSender_insert agg _ _ weight 0 (fresh _) ?_
    rw [other, Nat.add_zero, AggregateState.statsOf, known]
    rfl
  · rfl

theorem recordSend_totals : (agg.recordSend s).attemptsTotal = agg.attemptsTotal ∧
    totalOf (agg.recordSend s) = totalOf agg := by
  unfold AggregateState.recordSend
  simp only
  split <;> exact ⟨rfl, funext fun outcome => by cases outcome <;> rfl⟩

theorem recordOutcome_attempts :
    (agg.recordOutcome triggerId senderId outcome us).perSender.total PerSenderStats.attempts =
      agg.perSender.total PerSenderStats.attempts := by
  cases outcome with
  | landed => cases us <;> exact @perSender_insert _ _ _ _ 0 rfl rfl
  | sendError | unknownPending => exact @perSender_insert _ _ _ _ 0 rfl rfl

theorem recordOutcome_outcomes (other : FinalOutcome) :
    (agg.recordOutcome triggerId senderId outcome us).perSender.total (countOf other) =
      agg.perSender.total (countOf other) + if outcome = other then 1 else 0 := by
  cases outcome with
  | landed =>
    cases us <;> exact perSender_insert (by cases other <;> rfl) (by cases other <;> rfl)
  | sendError | unknownPending =>
    exact perSender_insert (by cases other <;> rfl) (by cases other <;> rfl)

theorem recordOutcome_totals (other : FinalOutcome) :
    totalOf (agg.recordOutcome triggerId senderId outcome us) other =
      totalOf agg other + if outcome = other then 1 else 0 := by
  cases outcome <;> cases other <;> rfl

theorem recordOutcome_attemptsTotal :
    (agg.recordOutcome triggerId senderId outcome us).attemptsTotal = agg.attemptsTotal := by
  cases outcome <;> rfl

end Counts

theorem countOutcome_addedTo (other : FinalOutcome) :
    (countOutcome outcome).addedTo (counterOf other) = if outcome = other then 1 else 0 := by
  cases outcome <;> cases other <;> rfl

theorem countOutcome_registers : (countOutcome outcome).addedTo .registerEvents = 0 := by
  cases outcome <;> rfl

theorem Balanced.close (balanced : Balanced recorder effects)
    (consistent : Consistent inputs recorder) :
    Balanced (closeAttempt cfg outcome recorder key).1
      (effects ++ (closeAttempt cfg outcome recorder key).2) := by
  cases present : recorder.attempts.get key with
  | none =>
    rw [closeAttempt_none present, List.append_nil]
    exact balanced
  | some att =>
    obtain ⟨reg, _, registered, _⟩ := consistent.registered key att present
    obtain ⟨us, closed⟩ := @closeAttempt_some cfg _ _ outcome _ _ present registered
    rw [closed]
    refine ⟨?_, ?_, ?_, ?_, ?_⟩
    · simp [recordOutcome_attemptsTotal, balanced.registered, counted_cons,
        countOutcome_registers]
    · intro other
      simp [recordOutcome_totals, balanced.written, counted_cons, countOutcome_addedTo]
    · simp [recordOutcome_attemptsTotal, recordOutcome_attempts, balanced.attempts]
    · intro other
      simp [recordOutcome_outcomes, recordOutcome_totals, balanced.outcomes]
    · have shrunk := HashTable.size_remove present
      have settled := balanced.settled
      simp only [recordOutcome_attemptsTotal, recordOutcome_totals]
      cases outcome <;> simp <;> omega

theorem Balanced.register {reg : RegisterEvent} (balanced : Balanced recorder effects)
    (fresh : recorder.attempts.get (keyOf reg) = none) :
    Balanced (step cfg recorder (.register reg)).1
      (effects ++ (step cfg recorder (.register reg)).2) := by
  refine ⟨?_, ?_, ?_, ?_, ?_⟩
  · simp [step, handleRegister, AggregateState.recordRegister, balanced.registered]
  · intro outcome
    have same : totalOf (recorder.agg.recordRegister reg) outcome =
        totalOf recorder.agg outcome := by
      cases outcome <;> rfl
    have other : Counter.registerEvents ≠ counterOf outcome := by cases outcome <;> decide
    simp [step, handleRegister, same, other, balanced.written]
  · simp only [step, handleRegister, recordRegister_attempts, balanced.attempts]
    rfl
  · intro outcome
    simp only [step, handleRegister, recordRegister_outcomes, balanced.outcomes]
    cases outcome <;> rfl
  · have grown : (handleRegister cfg { recorder with
        agg := recorder.agg.recordRegister reg } reg).attempts.size =
        recorder.attempts.size + 1 :=
      HashTable.size_insert_of_none _ fresh
    have settled := balanced.settled
    simp only [step, grown]
    simp only [handleRegister, AggregateState.recordRegister, totalOf] at settled ⊢
    omega

/-- The outcome of a send is noted in the aggregates. -/
theorem Balanced.recordSend (balanced : Balanced recorder effects) (s : SendEvent) :
    Balanced { recorder with agg := recorder.agg.recordSend s }
      (effects ++ [.fetchAdd .sendEvents 1]) := by
  obtain ⟨total, totals⟩ := @recordSend_totals recorder.agg s
  refine ⟨?_, ?_, ?_, ?_, ?_⟩
  · simp [total, balanced.registered]
  · intro outcome
    have other : Counter.sendEvents ≠ counterOf outcome := by cases outcome <;> decide
    simp [totals, other, balanced.written]
  · rw [total, ← balanced.attempts]
    exact recordSend_total (fun _ => rfl) fun _ _ _ => rfl
  · intro outcome
    rw [totals, ← balanced.outcomes]
    exact recordSend_total (fun _ => by cases outcome <;> rfl) fun _ _ _ => by
      cases outcome <;> rfl
  · simpa only [total, totals] using balanced.settled

/-- A new value of an open attempt changes no count. -/
theorem Balanced.note (balanced : Balanced recorder effects) {att : TriggerAttempt}
    (present : recorder.attempts.get key = some att) (next : TriggerAttempt) :
    Balanced (noted recorder key next) effects where
  registered := balanced.registered
  written := balanced.written
  attempts := balanced.attempts
  outcomes := balanced.outcomes
  settled := by
    have same : (noted recorder key next).attempts.size = recorder.attempts.size :=
      HashTable.size_insert_of_some next present
    rw [same]
    exact balanced.settled

/-- Effects on no counter of rows or registrations. -/
theorem Balanced.silent (balanced : Balanced recorder effects) {more : List RecorderEffect}
    (registers : counted .registerEvents more = 0)
    (rows : ∀ outcome, counted (counterOf outcome) more = 0) :
    Balanced recorder (effects ++ more) where
  registered := by simp [balanced.registered, registers]
  written outcome := by simp [balanced.written, rows]
  attempts := balanced.attempts
  outcomes := balanced.outcomes
  settled := balanced.settled

/-! ## Steps and runs -/

/-- What holds of the recorder after every step. -/
structure Sound (inputs : List Input) (recorder : State) (effects : List RecorderEffect) :
    Prop where
  consistent : Consistent inputs recorder
  balanced : Balanced recorder effects
  unmatched : ∀ key att, recorder.attempts.get key = some att → att.matched = none

theorem closeAttempt_get {att : TriggerAttempt} {reg : RegisterEvent}
    (present : recorder.attempts.get key = some att) (registered : att.register = some reg)
    (other : AttemptKey) :
    (closeAttempt cfg outcome recorder key).1.attempts.get other =
      if other = key then none else recorder.attempts.get other := by
  obtain ⟨us, closed⟩ := @closeAttempt_some cfg _ _ outcome _ _ present registered
  rw [closed]
  exact HashTable.get_remove ..

theorem Sound.close (sound : Sound inputs recorder effects) :
    Sound inputs (closeAttempt cfg outcome recorder key).1
      (effects ++ (closeAttempt cfg outcome recorder key).2) where
  consistent := sound.consistent.close
  balanced := sound.balanced.close sound.consistent
  unmatched other att found := by
    cases present : recorder.attempts.get key with
    | none =>
      rw [closeAttempt_none present] at found
      exact sound.unmatched other att found
    | some open' =>
      obtain ⟨reg, _, registered, _⟩ := sound.consistent.registered key open' present
      rw [closeAttempt_get present registered] at found
      split at found
      · simp at found
      · exact sound.unmatched other att found

/-- Ending several attempts. -/
theorem Sound.closeAll (sound : Sound inputs recorder effects) (keys : List AttemptKey) :
    Sound inputs (runAll (closeAttempt cfg outcome) recorder keys).1
      (effects ++ (runAll (closeAttempt cfg outcome) recorder keys).2) := by
  induction keys generalizing recorder effects with
  | nil => simpa using sound
  | cons key rest ih =>
    have later := ih (@Sound.close cfg _ _ _ key outcome sound)
    rwa [List.append_assoc] at later

/-- Ending an attempt whose value was set. -/
theorem Sound.closeNoted (sound : Sound inputs recorder effects) {att next : TriggerAttempt}
    (present : recorder.attempts.get key = some att) (same : next.register = att.register) :
    Sound inputs (closeAttempt cfg outcome (noted recorder key next) key).1
      (effects ++ (closeAttempt cfg outcome (noted recorder key next) key).2) := by
  have consistent := sound.consistent.note present same
  refine ⟨consistent.close, (sound.balanced.note present next).close consistent, ?_⟩
  intro other value found
  have here : (noted recorder key next).attempts.get key = some next := by simp [noted_get]
  obtain ⟨reg, _, registered, _⟩ := consistent.registered key next here
  rw [closeAttempt_get here registered, noted_get] at found
  split at found
  · simp at found
  · exact sound.unmatched other value found

theorem Sound.grow (sound : Sound inputs recorder effects) (more : List Input) :
    Sound (inputs ++ more) recorder effects :=
  ⟨sound.consistent.grow more, sound.balanced, sound.unmatched⟩

theorem Sound.send (sound : Sound inputs recorder effects) (s : SendEvent) :
    Sound inputs (handleSend cfg recorder s).1 (effects ++ (handleSend cfg recorder s).2) := by
  cases present : recorder.attempts.get (s.triggerId, s.senderId) with
  | none => simpa only [handleSend_none present, List.append_nil] using sound
  | some att =>
    rw [handleSend_some present]
    split
    · exact sound.closeNoted present rfl
    · rw [List.append_nil]
      refine ⟨sound.consistent.note present rfl, sound.balanced.note present _, ?_⟩
      intro other value found
      rw [noted_get] at found
      split at found
      · cases found
        exact sound.unmatched _ att present
      · exact sound.unmatched other value found

theorem nonceHook_counts (cache : Option SlotHashCache) (att : TriggerAttempt) (m : MatchEvent)
    (now : Instant) :
    counted .registerEvents (nonceHook cfg cache att m now) = 0 ∧
      ∀ outcome, counted (counterOf outcome) (nonceHook cfg cache att m now) = 0 := by
  unfold nonceHook
  split
  · split
    · exact ⟨rfl, fun outcome => by cases outcome <;> rfl⟩
    · exact ⟨rfl, fun outcome => by cases outcome <;> rfl⟩
  · exact ⟨rfl, fun outcome => rfl⟩

theorem Sound.matched (sound : Sound inputs recorder effects) (m : MatchEvent)
    (cache : Option SlotHashCache) (now : Instant) :
    Sound inputs (handleMatch cfg recorder m cache now).1
      (effects ++ (handleMatch cfg recorder m cache now).2) := by
  cases known : recorder.sigToKey.get m.signature with
  | none => simpa only [handleMatch_unknown known, List.append_nil] using sound
  | some key =>
    obtain ⟨att, present⟩ := sound.consistent.known_open known
    obtain ⟨registers, rows⟩ := @nonceHook_counts cfg cache att m now
    have told : Sound inputs recorder (effects ++ nonceHook cfg cache att m now) :=
      ⟨sound.consistent, sound.balanced.silent registers rows, sound.unmatched⟩
    rw [handleMatch_some known present, ← List.append_assoc]
    exact told.closeNoted present rfl

/-- **Every input keeps the tables and the counts in order**, as long as a new
registration shares nothing with the earlier ones. -/
theorem Sound.step {past : List Input} {input : Input} (sound : Sound past recorder effects)
    (distinct : Distinct (past ++ [input])) :
    Sound (past ++ [input]) (step cfg recorder input).1
      (effects ++ (step cfg recorder input).2) := by
  cases input with
  | register reg =>
    obtain ⟨consistent, fresh⟩ :=
      @Consistent.register cfg _ past reg (sound.consistent.withAgg _) distinct
    refine ⟨consistent, sound.balanced.register fresh, ?_⟩
    intro key att found
    simp only [Recorder.step, handleRegister, HashTable.get_insert] at found
    split at found
    · cases found
      rfl
    · exact sound.unmatched key att found
  | send s =>
    have noted : Sound past { recorder with agg := recorder.agg.recordSend s }
        (effects ++ [.fetchAdd .sendEvents 1]) :=
      ⟨sound.consistent.withAgg _, sound.balanced.recordSend s, sound.unmatched⟩
    have handled := @Sound.send cfg _ _ _ noted s
    rw [List.append_assoc] at handled
    exact handled.grow _
  | matched m cache now =>
    have received : Sound past recorder (effects ++ [.fetchAdd .matchEvents 1]) :=
      ⟨sound.consistent, sound.balanced.silent rfl fun outcome => by cases outcome <;> rfl,
        sound.unmatched⟩
    have handled := @Sound.matched cfg _ _ _ received m cache now
    rw [List.append_assoc] at handled
    exact handled.grow _
  | sweep now => exact (sound.closeAll (expired recorder now)).grow _

theorem run_sound (distinct : Distinct inputs) :
    Sound inputs (runAll (step cfg) {} inputs).1 (runAll (step cfg) {} inputs).2 := by
  induction inputs using List.reverseRecOn with
  | nil => exact ⟨consistent_initial, balanced_initial, by simp⟩
  | append_singleton past input ih =>
    rw [runAll_concat]
    exact (ih distinct.of_append).step distinct

/-! ## One row each -/

/-- A row of a registration. -/
def IsRow (cfg : Config) (reg : RegisterEvent) (row : TriggerRecord) : Prop :=
  ∃ send matched outcome, row = makeRecord cfg reg send matched outcome

section Rows

variable {sig : Signature} {att : TriggerAttempt} {reg : RegisterEvent}

theorem rowOf_isRow (registered : att.register = some reg) (outcome : FinalOutcome) :
    ∃ row, rowOf cfg att outcome = [row] ∧ IsRow cfg reg row :=
  ⟨makeRecord cfg reg att.send att.matched outcome, by simp [rowOf, registered], _, _, _, rfl⟩

/-- An open attempt stays open without a row, or ends with one. -/
theorem attemptStep_row (registered : att.register = some reg) {input : Input}
    (unregistered : ∀ other, input = .register other → keyOf other ≠ key) :
    (∃ next, attemptStep cfg key sig (some att) input = (some next, []) ∧
      next.register = some reg) ∨
    ∃ row, attemptStep cfg key sig (some att) input = (none, [row]) ∧ IsRow cfg reg row := by
  cases input with
  | register other =>
    exact .inl ⟨att, by simp [attemptStep, unregistered other rfl], registered⟩
  | send s =>
    by_cases own : (s.triggerId, s.senderId) = key
    · by_cases failed : s.outcome.error.isSome
      · obtain ⟨row, only, isRow⟩ := @rowOf_isRow cfg { att with send := some s } reg registered
          .sendError
        exact .inr ⟨row, by simp [attemptStep, own, failed, only], isRow⟩
      · exact .inl ⟨{ att with send := some s }, by simp [attemptStep, own, failed], registered⟩
    · exact .inl ⟨att, by simp [attemptStep, own], registered⟩
  | matched m cache now =>
    by_cases own : m.signature = sig
    · obtain ⟨row, only, isRow⟩ := @rowOf_isRow cfg { att with matched := some m } reg registered
        .landed
      exact .inr ⟨row, by simp [attemptStep, own, only], isRow⟩
    · exact .inl ⟨att, by simp [attemptStep, own], registered⟩
  | sweep now =>
    by_cases late : att.deadlineAt ≤ now
    · obtain ⟨row, only, isRow⟩ := @rowOf_isRow cfg att reg registered .unknownPending
      exact .inr ⟨row, by simp [attemptStep, late, only], isRow⟩
    · exact .inl ⟨att, by simp [attemptStep, late], registered⟩

/-- An attempt that is not open writes no row until it is registered. -/
theorem runAll_attemptStep_closed {inputs : List Input}
    (unregistered : ∀ other, .register other ∈ inputs → keyOf other ≠ key) :
    runAll (attemptStep cfg key sig) none inputs = (none, []) := by
  induction inputs with
  | nil => rfl
  | cons input rest ih =>
    have still : attemptStep cfg key sig none input = (none, []) := by
      cases input with
      | register other => simp [attemptStep, unregistered other (List.mem_cons_self ..)]
      | send s => simp [attemptStep]
      | matched m cache now => simp [attemptStep]
      | sweep now => rfl
    rw [runAll_cons, still, ih fun other member =>
      unregistered other (List.mem_cons_of_mem _ member)]
    rfl

/-- An open attempt has one row when all is done. -/
theorem runAll_attemptStep_row (registered : att.register = some reg) {inputs : List Input}
    (unregistered : ∀ other, .register other ∈ inputs → keyOf other ≠ key) :
    ∃ row, (runAll (attemptStep cfg key sig) (some att) inputs).2 ++
        attemptFlush cfg (runAll (attemptStep cfg key sig) (some att) inputs).1 = [row] ∧
      IsRow cfg reg row := by
  induction inputs generalizing att with
  | nil => exact rowOf_isRow registered .unknownPending
  | cons input rest ih =>
    have later : ∀ other, .register other ∈ rest → keyOf other ≠ key := fun other member =>
      unregistered other (List.mem_cons_of_mem _ member)
    have first : ∀ other, input = .register other → keyOf other ≠ key := fun other same =>
      unregistered other (same ▸ List.mem_cons_self ..)
    rw [runAll_cons]
    rcases @attemptStep_row cfg key sig _ _ registered input first with
      ⟨next, stays, registered'⟩ | ⟨row, ended, isRow⟩
    · rw [stays]
      simpa using ih registered' later
    · rw [ended, runAll_attemptStep_closed later]
      exact ⟨row, rfl, isRow⟩

end Rows

/-- Among registrations that share nothing, a signature is used for its attempt only. -/
theorem identifies_of_distinct {regs : List RegisterEvent} (distinct : regs.Pairwise ShareNothing)
    (among : ∀ other ∈ registrations inputs, other ∈ regs) {reg : RegisterEvent}
    (member : reg ∈ regs) : ∀ input ∈ inputs, Identifies (keyOf reg) reg.signature input := by
  intro input present
  cases input with
  | register other =>
    by_cases same : other = reg
    · simp [same, Identifies]
    · have apart := distinct.forall (among other (mem_registrations.mpr present)) member same
      simp [Identifies, apart.1, apart.2]
  | send | matched | sweep => trivial

/-- **Every registration has exactly one row in the end.** -/
theorem runLoop_row (distinct : Distinct inputs) {reg : RegisterEvent}
    (member : reg ∈ registrations inputs) :
    ∃ row, ownRecords (keyOf reg) (runLoop cfg inputs).2 = [row] ∧ IsRow cfg reg row := by
  rw [runLoop_attempt (identifies_of_distinct distinct (fun _ => id) member)]
  obtain ⟨before, after, split⟩ := List.append_of_mem (mem_registrations.mp member)
  obtain ⟨earlier, later⟩ := (split ▸ distinct).around
  obtain ⟨row, only, isRow⟩ := @runAll_attemptStep_row cfg (keyOf reg) reg.signature
    (registeredAttempt cfg reg) reg rfl after later
  refine ⟨row, ?_, isRow⟩
  rw [attemptRows, split, runAll_append, runAll_attemptStep_closed earlier, runAll_cons]
  simpa [attemptStep] using only

/-! ## The last flush -/

theorem Sound.closeAll_get (sound : Sound inputs recorder effects) (keys : List AttemptKey)
    (other : AttemptKey) :
    (runAll (closeAttempt cfg outcome) recorder keys).1.attempts.get other =
      if other ∈ keys then none else recorder.attempts.get other := by
  induction keys generalizing recorder effects with
  | nil => simp
  | cons key rest ih =>
    have first : (closeAttempt cfg outcome recorder key).1.attempts.get other =
        if other = key then none else recorder.attempts.get other := by
      cases present : recorder.attempts.get key with
      | none =>
        rw [closeAttempt_none present]
        by_cases own : other = key
        · simp [own, present]
        · simp [own]
      | some att =>
        obtain ⟨reg, _, registered, _⟩ := sound.consistent.registered key att present
        exact closeAttempt_get present registered other
    rw [runAll_cons, ih (@Sound.close cfg _ _ _ key outcome sound), first]
    by_cases own : other = key
    · simp [own]
    · simp [own]

theorem runLoop_sound (distinct : Distinct inputs) :
    Sound inputs (runLoop cfg inputs).1 (runLoop cfg inputs).2 ∧
      ∀ key, (runLoop cfg inputs).1.attempts.get key = none := by
  have sound := @run_sound cfg inputs distinct
  refine ⟨sound.closeAll _, fun key => ?_⟩
  rw [runLoop, flush, sound.closeAll_get]
  split
  · rfl
  · next closed => simpa [mem_open] using closed

/-! ## The recorder -/

/-- What the recorder conserves: the registrations are the rows and the open attempts,
the counts of the senders sum to those of the run, the tables are inverse to each
other, and no open attempt has a match. -/
structure Conserved (recorder : State) (effects : List RecorderEffect) : Prop where
  settled : counted .registerEvents effects =
    counted .recordsLanded effects + counted .recordsSendError effects +
      counted .recordsUnknownPending effects + recorder.attempts.size
  attempts : recorder.agg.perSender.total PerSenderStats.attempts = recorder.agg.attemptsTotal ∧
    recorder.agg.attemptsTotal = counted .registerEvents effects
  landed : recorder.agg.perSender.total PerSenderStats.landed = recorder.agg.attemptsLanded ∧
    recorder.agg.attemptsLanded = counted .recordsLanded effects
  sendError :
    recorder.agg.perSender.total PerSenderStats.sendError = recorder.agg.attemptsSendError ∧
      recorder.agg.attemptsSendError = counted .recordsSendError effects
  unknownPending :
    recorder.agg.perSender.total PerSenderStats.unknownPending =
        recorder.agg.attemptsUnknownPending ∧
      recorder.agg.attemptsUnknownPending = counted .recordsUnknownPending effects
  inverse : ∀ sig key, recorder.sigToKey.get sig = some key ↔ signatureOf recorder key = some sig
  signed : ∀ key att, recorder.attempts.get key = some att →
    ∃ sig, signatureOf recorder key = some sig
  known_open : ∀ sig key, recorder.sigToKey.get sig = some key →
    ∃ att, recorder.attempts.get key = some att
  unmatched : ∀ key att, recorder.attempts.get key = some att → att.matched = none

theorem Sound.conserved (sound : Sound inputs recorder effects) : Conserved recorder effects := by
  have landed := sound.balanced.written .landed
  have sendError := sound.balanced.written .sendError
  have unknownPending := sound.balanced.written .unknownPending
  refine ⟨?_, ⟨sound.balanced.attempts, sound.balanced.registered⟩,
    ⟨sound.balanced.outcomes .landed, landed⟩, ⟨sound.balanced.outcomes .sendError, sendError⟩,
    ⟨sound.balanced.outcomes .unknownPending, unknownPending⟩, sound.consistent.inverse, ?_,
    fun _ _ known => sound.consistent.known_open known, sound.unmatched⟩
  · have settled := sound.balanced.settled
    rwa [sound.balanced.registered, landed, sendError, unknownPending] at settled
  · intro key att present
    obtain ⟨reg, _, registered, _⟩ := sound.consistent.registered key att present
    exact ⟨reg.signature, by simp [signatureOf, present, registered]⟩

/-- **The recorder neither loses nor invents an attempt.** Whatever the order of the
inputs, the accounts are in order after every one of them and after the last flush,
which leaves no attempt open and one row for every registration. -/
theorem recorder_conserves (cfg : Config) (inputs : List Input) (distinct : Distinct inputs) :
    (∀ past rest, inputs = past ++ rest →
      Conserved (runAll (step cfg) {} past).1 (runAll (step cfg) {} past).2) ∧
    Conserved (runLoop cfg inputs).1 (runLoop cfg inputs).2 ∧
    (∀ key, (runLoop cfg inputs).1.attempts.get key = none) ∧
    ∀ reg ∈ registrations inputs, ∃ row,
      ownRecords (keyOf reg) (runLoop cfg inputs).2 = [row] ∧ IsRow cfg reg row := by
  obtain ⟨sound, closed⟩ := @runLoop_sound cfg inputs distinct
  refine ⟨?_, sound.conserved, closed, fun reg member => runLoop_row distinct member⟩
  rintro past rest rfl
  exact (run_sound distinct.of_append).conserved

/-- A second attempt of the sample trigger. -/
def sampleRegister' : RegisterEvent :=
  { sampleRegister with senderId := 4, signature := Samples.signature 2 }

theorem recorder_conserves_two :
    Conserved (runLoop sampleConfig
        [.register sampleRegister, .register sampleRegister', .send sampleFailedSend,
          sampleHit.input]).1
      (runLoop sampleConfig
        [.register sampleRegister, .register sampleRegister', .send sampleFailedSend,
          sampleHit.input]).2 :=
  (recorder_conserves sampleConfig [.register sampleRegister, .register sampleRegister',
    .send sampleFailedSend, sampleHit.input] (by decide +kernel)).2.1

end SenderAnalysis.Recorder

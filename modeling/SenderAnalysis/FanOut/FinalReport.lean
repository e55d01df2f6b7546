import Mathlib.Algebra.BigOperators.Group.Finset.Piecewise
import Mathlib.Data.Finset.Card
import Mathlib.Data.Finset.Lattice.Lemmas
import SenderAnalysis.FanOut.Recorder.Fates
import SenderAnalysis.Foundations.Tallies

/-!
# The final report

At the end of a run the recorder's aggregates become a summary, and the report prints it.
In nonce mode the report splits the pending attempts in two: those that lost to another
variant of their trigger, and those of triggers that were lost. It does not look at the
triggers for that. It takes one losing sibling for every landed trigger.

The aggregates are the counts of the rows (`runLoop_tallies`), so the split can be
compared with the one that the rows make, trigger by trigger. The rows are the
registrations with their fates, so the comparison can be read off the inputs: the split is
right exactly when the variants registered for the triggers that land are as many as these
triggers, their variants that land and their variants whose send fails, together
(`sendsSection_splits_iff`). With two variants for every trigger that is so when no sibling
of a variant that lands fails to be sent, but not with three.
-/

set_option autoImplicit false

namespace SenderAnalysis

/-- The summary of a run, from the first send to the last one. -/
structure ActiveWindowSummary where
  firstSendAtNs : Option Nat
  lastSendAtNs : Option Nat
  activeSecs : Float
  triggersAttempted : Nat
  triggersLanded : Nat
  attemptsTotal : Nat
  attemptsLanded : Nat
  attemptsSendError : Nat
  attemptsUnknownPending : Nat
  perSender : List Recorder.PerSenderStats

/-- A duration in seconds. -/
def asSecsF64 (duration : Duration) : Float :=
  Float.ofNat (duration / 1000000000) + Float.ofNat (duration % 1000000000) / 1000000000.0

/-- The summary of the aggregates, the senders in the order of their ids. -/
def Recorder.AggregateState.intoSummary (agg : AggregateState) (anchor : Instant) :
    ActiveWindowSummary where
  firstSendAtNs := agg.firstSendAt.map fun t => saturatingDurationSince t anchor % 2 ^ 64
  lastSendAtNs := agg.lastSendAt.map fun t => saturatingDurationSince t anchor % 2 ^ 64
  activeSecs :=
    match agg.firstSendAt, agg.lastSendAt with
    | some first, some last => asSecsF64 (saturatingDurationSince last first)
    | _, _ => 0.0
  triggersAttempted := agg.triggersAttempted.card
  triggersLanded := agg.triggersLanded.card
  attemptsTotal := agg.attemptsTotal
  attemptsLanded := agg.attemptsLanded
  attemptsSendError := agg.attemptsSendError
  attemptsUnknownPending := agg.attemptsUnknownPending
  perSender :=
    (agg.perSender.entries.map Sigma.snd).mergeSort fun first second =>
      first.senderId ≤ second.senderId

namespace FinalReport

/-- The triggers of the report. -/
structure TriggersSection where
  fired : Nat
  landed : Nat
  landPct : Float
  lost : Nat
  lostPct : Float

def triggersSection (active : ActiveWindowSummary) : TriggersSection :=
  let fired := active.triggersAttempted
  let landed := active.triggersLanded
  let lost := fired - landed
  let pct := fun part : Nat =>
    if fired > 0 then Float.ofNat part / Float.ofNat fired * 100.0 else 0.0
  ⟨fired, landed, pct landed, lost, pct lost⟩

/-- The sends of the report: in nonce mode the pending ones are split, else they are given
as they are. -/
structure SendsSection where
  totalSent : Nat
  landed : Nat
  losingSiblings : Nat
  lostNoLand : Nat
  sendErrors : Nat
deriving DecidableEq, Repr

def sendsSection (nonceEnabled : Bool) (active : ActiveWindowSummary) : SendsSection :=
  let losingSiblings := if nonceEnabled then active.triggersLanded else 0
  { totalSent := active.attemptsTotal
    landed := active.attemptsLanded
    losingSiblings
    lostNoLand := active.attemptsUnknownPending - losingSiblings
    sendErrors := active.attemptsSendError }

end FinalReport

namespace Recorder

variable {cfg : Config} {recorder : State} {effects : List RecorderEffect} {key : AttemptKey}
  {outcome : FinalOutcome} {rows : List TriggerRecord} {agg : AggregateState}

/-! ## The rows of a run -/

/-- The triggers that landed through some sender. -/
def landedTriggers (rows : List TriggerRecord) : Finset TriggerId :=
  ((rows.filter fun row => row.finalOutcome = .landed).map TriggerRecord.triggerId).toFinset

/-- The attempts with an outcome. -/
def attemptsWith (outcome : FinalOutcome) (rows : List TriggerRecord) : Nat :=
  rows.countP fun row => row.finalOutcome = outcome

/-- The attempts with an outcome whose trigger landed. -/
def attemptsOfLanded (outcome : FinalOutcome) (rows : List TriggerRecord) : Nat :=
  rows.countP fun row => row.finalOutcome = outcome ∧ row.triggerId ∈ landedTriggers rows

/-- The attempts with an outcome whose trigger landed through no sender. -/
def attemptsOfLost (outcome : FinalOutcome) (rows : List TriggerRecord) : Nat :=
  rows.countP fun row => row.finalOutcome = outcome ∧ row.triggerId ∉ landedTriggers rows

/-- The attempts of the triggers that landed. -/
def attemptsForLanded (rows : List TriggerRecord) : Nat :=
  rows.countP fun row => row.triggerId ∈ landedTriggers rows

theorem attemptsWith_append (row : TriggerRecord) :
    attemptsWith outcome (rows ++ [row]) =
      attemptsWith outcome rows + if row.finalOutcome = outcome then 1 else 0 := by
  simp [attemptsWith, List.countP_append, List.countP_singleton]

theorem landedTriggers_append (row : TriggerRecord) :
    landedTriggers (rows ++ [row]) =
      if row.finalOutcome = .landed then insert row.triggerId (landedTriggers rows)
      else landedTriggers rows := by
  unfold landedTriggers
  rw [List.filter_append, List.map_append, List.toFinset_append, List.filter_singleton]
  by_cases landed : row.finalOutcome = .landed
  · rw [if_pos landed, decide_eq_true landed, Finset.union_comm]
    rfl
  · simp [landed]

/-- The trigger of a landed row landed. -/
theorem mem_landedTriggers {row : TriggerRecord} (mem : row ∈ rows)
    (landed : row.finalOutcome = .landed) : row.triggerId ∈ landedTriggers rows :=
  List.mem_toFinset.mpr (List.mem_map_of_mem
    (List.mem_filter.mpr ⟨mem, decide_eq_true landed⟩))

/-- The attempts with an outcome are those whose trigger landed and those whose trigger
did not. -/
theorem attemptsWith_split (outcome : FinalOutcome) (rows : List TriggerRecord) :
    attemptsWith outcome rows = attemptsOfLanded outcome rows + attemptsOfLost outcome rows := by
  unfold attemptsWith attemptsOfLanded attemptsOfLost
  rw [countP_split _ fun row => decide (row.triggerId ∈ landedTriggers rows)]
  simp only [Bool.decide_and, decide_not]

/-- Landed attempts have triggers that landed. -/
theorem attemptsOfLanded_landed (rows : List TriggerRecord) :
    attemptsOfLanded .landed rows = attemptsWith .landed rows := by
  apply List.countP_congr
  intro row mem
  simp only [decide_eq_true_eq]
  exact ⟨And.left, fun landed => ⟨landed, mem_landedTriggers mem landed⟩⟩

/-- Every attempt of a landed trigger landed, failed to be sent or is pending. -/
theorem attemptsForLanded_split (rows : List TriggerRecord) :
    attemptsForLanded rows = attemptsWith .landed rows + attemptsOfLanded .sendError rows +
      attemptsOfLanded .unknownPending rows := by
  rw [← attemptsOfLanded_landed]
  unfold attemptsForLanded attemptsOfLanded
  generalize landedTriggers rows = landed
  induction rows with
  | nil => rfl
  | cons row rows ih =>
    simp only [List.countP_cons, ih]
    by_cases isLanded : row.triggerId ∈ landed <;> cases row.finalOutcome <;>
      simp [isLanded] <;> omega

/-! ## The aggregates count the rows -/

/-- The aggregates are the counts of the rows. -/
structure Tallies (agg : AggregateState) (rows : List TriggerRecord) : Prop where
  triggersLanded : agg.triggersLanded = landedTriggers rows
  outcomes : ∀ outcome, totalOf agg outcome = attemptsWith outcome rows

theorem tallies_initial : Tallies {} [] where
  triggersLanded := rfl
  outcomes outcome := by cases outcome <;> rfl

theorem recordOutcome_triggersLanded (agg : AggregateState) (triggerId : TriggerId)
    (senderId : UInt8) (outcome : FinalOutcome) (us : Option Nat) :
    (agg.recordOutcome triggerId senderId outcome us).triggersLanded =
      if outcome = .landed then insert triggerId agg.triggersLanded else agg.triggersLanded := by
  cases outcome <;> rfl

/-- An outcome is counted with its row. -/
theorem Tallies.recordOutcome (tallies : Tallies agg rows) {row : TriggerRecord}
    (senderId : UInt8) (us : Option Nat) :
    Tallies (agg.recordOutcome row.triggerId senderId row.finalOutcome us) (rows ++ [row]) where
  triggersLanded := by
    rw [recordOutcome_triggersLanded, landedTriggers_append, tallies.triggersLanded]
  outcomes other := by
    rw [recordOutcome_totals, attemptsWith_append, tallies.outcomes]

theorem Tallies.close (tallies : Tallies recorder.agg (records effects)) :
    Tallies (closeAttempt cfg outcome recorder key).1.agg
      (records (effects ++ (closeAttempt cfg outcome recorder key).2)) := by
  cases present : recorder.attempts.get key with
  | none =>
    rw [closeAttempt_none present, List.append_nil]
    exact tallies
  | some att =>
    rw [records_append]
    cases registered : att.register with
    | none =>
      simp only [closeAttempt, present, registered, records_emitRecord, rowOf, Option.map_none,
        Option.toList_none, List.append_nil]
      exact tallies
    | some reg =>
      obtain ⟨us, closed⟩ := @closeAttempt_some cfg _ _ outcome _ _ present registered
      have row : records (closeAttempt cfg outcome recorder key).2 =
          [makeRecord cfg reg att.send att.matched outcome] := by
        rw [closed]
        cases outcome <;> rfl
      rw [row, closed]
      exact @Tallies.recordOutcome _ _ tallies
        (makeRecord cfg reg att.send att.matched outcome) reg.senderId us

theorem Tallies.closeAll (tallies : Tallies recorder.agg (records effects))
    (keys : List AttemptKey) :
    Tallies (runAll (closeAttempt cfg outcome) recorder keys).1.agg
      (records (effects ++ (runAll (closeAttempt cfg outcome) recorder keys).2)) := by
  induction keys generalizing recorder effects with
  | nil => simpa using tallies
  | cons key rest ih =>
    have later := ih (@Tallies.close cfg _ _ key outcome tallies)
    rw [List.append_assoc] at later
    exact later

/-- Aggregates that agree on the counts agree with the same rows. -/
theorem Tallies.of_counts {other : AggregateState} (tallies : Tallies agg rows)
    (triggersLanded : other.triggersLanded = agg.triggersLanded)
    (totals : totalOf other = totalOf agg) : Tallies other rows :=
  ⟨triggersLanded.trans tallies.triggersLanded, fun outcome =>
    (congrFun totals outcome).trans (tallies.outcomes outcome)⟩

theorem recordSend_triggersLanded (agg : AggregateState) (s : SendEvent) :
    (agg.recordSend s).triggersLanded = agg.triggersLanded := by
  unfold AggregateState.recordSend
  simp only
  split <;> rfl

theorem Tallies.send (tallies : Tallies recorder.agg (records effects)) (s : SendEvent) :
    Tallies (handleSend cfg recorder s).1.agg
      (records (effects ++ (handleSend cfg recorder s).2)) := by
  cases present : recorder.attempts.get (s.triggerId, s.senderId) with
  | none =>
    rw [handleSend_none present, List.append_nil]
    exact tallies
  | some att =>
    rw [handleSend_some present]
    split
    · exact @Tallies.close cfg (noted recorder _ _) effects _ .sendError tallies
    · rw [List.append_nil]
      exact tallies

theorem Tallies.matched (tallies : Tallies recorder.agg (records effects)) (m : MatchEvent)
    (cache : Option SlotHashCache) (now : Instant) :
    Tallies (handleMatch cfg recorder m cache now).1.agg
      (records (effects ++ (handleMatch cfg recorder m cache now).2)) := by
  cases known : recorder.sigToKey.get m.signature with
  | none =>
    rw [handleMatch_unknown known, List.append_nil]
    exact tallies
  | some other =>
    cases present : recorder.attempts.get other with
    | none =>
      rw [handleMatch_orphan known present, List.append_nil]
      exact tallies
    | some att =>
      rw [handleMatch_some known present, ← List.append_assoc]
      apply @Tallies.close cfg (noted recorder other _) _ other .landed
      rw [records_append, records_nonceHook, List.append_nil]
      exact tallies

/-- **Every input keeps the aggregates with the rows.** -/
theorem Tallies.step (tallies : Tallies recorder.agg (records effects)) (input : Input) :
    Tallies (step cfg recorder input).1.agg
      (records (effects ++ (step cfg recorder input).2)) := by
  cases input with
  | register reg =>
    rw [records_append]
    exact (List.append_nil (records effects)).symm ▸
      tallies.of_counts rfl (funext fun outcome => by cases outcome <;> rfl)
  | send s =>
    have received : Tallies (recorder.agg.recordSend s)
        (records (effects ++ [.fetchAdd .sendEvents 1])) := by
      rw [records_append, records_fetchAdd, records_nil, List.append_nil]
      exact tallies.of_counts (recordSend_triggersLanded _ s) recordSend_totals.2
    have handled :=
      @Tallies.send cfg { recorder with agg := recorder.agg.recordSend s } _ received s
    rw [List.append_assoc] at handled
    exact handled
  | matched m cache now =>
    have received : Tallies recorder.agg (records (effects ++ [.fetchAdd .matchEvents 1])) := by
      rw [records_append, records_fetchAdd, records_nil, List.append_nil]
      exact tallies
    have handled := @Tallies.matched cfg recorder _ received m cache now
    rw [List.append_assoc] at handled
    exact handled
  | sweep now => exact tallies.closeAll (expired recorder now)

/-- **After every run the aggregates are the counts of its rows.** -/
theorem runLoop_tallies (cfg : Config) (inputs : List Input) :
    Tallies (runLoop cfg inputs).1.agg (records (runLoop cfg inputs).2) := by
  have before : Tallies (runAll (step cfg) {} inputs).1.agg
      (records (runAll (step cfg) {} inputs).2) := by
    induction inputs using List.reverseRecOn with
    | nil => exact tallies_initial
    | append_singleton past input ih =>
      rw [runAll_concat]
      exact ih.step input
  exact before.closeAll _

/-! ## The split of the pending attempts -/

/-- The report splits the pending attempts of a run the way its rows do: those of triggers
that landed, and those of triggers that did not. -/
def SplitsPending (cfg : Config) (inputs : List Input) : Prop :=
  let rows := records (runLoop cfg inputs).2
  let report :=
    FinalReport.sendsSection true ((runLoop cfg inputs).1.agg.intoSummary cfg.anchor)
  report.losingSiblings = attemptsOfLanded .unknownPending rows ∧
    report.lostNoLand = attemptsOfLost .unknownPending rows

instance (cfg : Config) (inputs : List Input) : Decidable (SplitsPending cfg inputs) :=
  inferInstanceAs (Decidable (_ ∧ _))

/-- The split by the rows: what it takes of the attempts of the landed triggers. -/
theorem splitsPending_iff_rows {inputs : List Input}
    (ofRun : records (runLoop cfg inputs).2 = rows) :
    SplitsPending cfg inputs ↔
      attemptsForLanded rows = (landedTriggers rows).card + attemptsWith .landed rows +
        attemptsOfLanded .sendError rows := by
  subst ofRun
  have tallies := runLoop_tallies cfg inputs
  unfold SplitsPending
  generalize records (runLoop cfg inputs).2 = rows at *
  have losing : (FinalReport.sendsSection true
      ((runLoop cfg inputs).1.agg.intoSummary cfg.anchor)).losingSiblings =
        (landedTriggers rows).card :=
    congrArg Finset.card tallies.triggersLanded
  have lost : (FinalReport.sendsSection true
      ((runLoop cfg inputs).1.agg.intoSummary cfg.anchor)).lostNoLand =
        attemptsWith .unknownPending rows - (landedTriggers rows).card := by
    rw [← losing]
    exact congrArg (· - _) (tallies.outcomes .unknownPending)
  have pending := attemptsWith_split .unknownPending rows
  have forLanded := attemptsForLanded_split rows
  simp only [losing, lost]
  constructor
  · rintro ⟨same, _⟩
    omega
  · intro balanced
    constructor <;> omega

/-! ## The split by the inputs -/

/-- The triggers of which a variant lands. -/
def landingTriggers (cfg : Config) (inputs : List Input) : Finset TriggerId :=
  (((fates cfg inputs).filter fun fate => fate.2 = .landed).map fun fate =>
    fate.1.triggerId).toFinset

/-- The variants that are registered for a trigger. -/
def variantsOf (inputs : List Input) (trigger : TriggerId) : Nat :=
  (registrations inputs).countP fun reg => reg.triggerId = trigger

/-- The variants of a trigger with a fate. -/
def variantsWith (cfg : Config) (inputs : List Input) (outcome : FinalOutcome)
    (trigger : TriggerId) : Nat :=
  (fates cfg inputs).countP fun fate =>
    decide (fate.2 = outcome) && decide (fate.1.triggerId = trigger)

section Inputs

variable {inputs : List Input}

/-- The triggers and outcomes of the rows are those of the registrations. -/
theorem rows_perm_fates (distinct : Distinct inputs) :
    ((records (runLoop cfg inputs).2).map fun row => (row.triggerId, row.finalOutcome)).Perm
      ((fates cfg inputs).map fun fate => (fate.1.triggerId, fate.2)) := by
  have perm := (records_fates cfg inputs distinct).map fun pair => (pair.1.1, pair.2)
  rwa [List.map_map, List.map_map] at perm

/-- What is counted of triggers and outcomes can be counted of the registrations. -/
theorem countP_rows (distinct : Distinct inputs) (p : TriggerId × FinalOutcome → Bool) :
    (records (runLoop cfg inputs).2).countP (fun row => p (row.triggerId, row.finalOutcome)) =
      (fates cfg inputs).countP fun fate => p (fate.1.triggerId, fate.2) := by
  have same := (@rows_perm_fates cfg inputs distinct).countP_eq p
  rwa [List.countP_map, List.countP_map] at same

/-- The triggers that landed are those of which a variant lands. -/
theorem landedTriggers_eq (distinct : Distinct inputs) :
    landedTriggers (records (runLoop cfg inputs).2) = landingTriggers cfg inputs := by
  ext trigger
  have same := (@rows_perm_fates cfg inputs distinct).mem_iff (a := (trigger, .landed))
  simp only [List.mem_map, Prod.mk.injEq] at same
  simp only [landedTriggers, landingTriggers, List.mem_toFinset, List.mem_map, List.mem_filter,
    decide_eq_true_eq, and_assoc]
  simpa only [and_comm] using same

theorem attemptsForLanded_eq (distinct : Distinct inputs) :
    attemptsForLanded (records (runLoop cfg inputs).2) =
      ∑ trigger ∈ landingTriggers cfg inputs, variantsOf inputs trigger := by
  have counted := @countP_rows cfg inputs distinct fun pair =>
    true && decide (pair.1 ∈ landingTriggers cfg inputs)
  simp only [Bool.true_and] at counted
  rw [attemptsForLanded, landedTriggers_eq distinct, counted]
  have regs : (fates cfg inputs).countP (fun fate =>
      decide (fate.1.triggerId ∈ landingTriggers cfg inputs)) =
      (registrations inputs).countP fun reg =>
        true && decide (reg.triggerId ∈ landingTriggers cfg inputs) := by
    rw [← fates_registrations cfg inputs, List.countP_map]
    rfl
  rw [regs, countP_mem_eq_sum RegisterEvent.triggerId]
  rfl

theorem attemptsOfLanded_eq (distinct : Distinct inputs) (outcome : FinalOutcome) :
    attemptsOfLanded outcome (records (runLoop cfg inputs).2) =
      ∑ trigger ∈ landingTriggers cfg inputs, variantsWith cfg inputs outcome trigger := by
  have counted := @countP_rows cfg inputs distinct fun pair =>
    decide (pair.2 = outcome) && decide (pair.1 ∈ landingTriggers cfg inputs)
  rw [attemptsOfLanded, landedTriggers_eq distinct]
  simp only [Bool.decide_and]
  rw [counted, countP_mem_eq_sum fun fate : RegisterEvent × FinalOutcome => fate.1.triggerId]
  rfl

/-- With the same number of variants for every trigger that lands, one of which lands, the
sums over the triggers are products. -/
theorem sum_variants_eq_iff {senders : Nat}
    (fanOut : ∀ trigger ∈ landingTriggers cfg inputs, variantsOf inputs trigger = senders)
    (once : ∀ trigger ∈ landingTriggers cfg inputs,
      variantsWith cfg inputs .landed trigger = 1) :
    (∑ trigger ∈ landingTriggers cfg inputs, variantsOf inputs trigger =
        ∑ trigger ∈ landingTriggers cfg inputs, (1 + variantsWith cfg inputs .landed trigger +
          variantsWith cfg inputs .sendError trigger)) ↔
      (landingTriggers cfg inputs).card * senders = (landingTriggers cfg inputs).card * 2 +
        ∑ trigger ∈ landingTriggers cfg inputs, variantsWith cfg inputs .sendError trigger := by
  have ones : ∑ trigger ∈ landingTriggers cfg inputs,
      (1 + variantsWith cfg inputs .landed trigger) = (landingTriggers cfg inputs).card * 2 :=
    Finset.sum_const_nat fun trigger mem => by rw [once trigger mem]
  rw [Finset.sum_const_nat fanOut, Finset.sum_add_distrib, ones]

end Inputs

/-- **The report splits the pending attempts rightly exactly when the variants registered
for the triggers that land are as many as these triggers, their variants that land and
their variants whose send fails, together.** With a fixed number of senders for every such
trigger, one of which lands, it does so exactly when the failures make up for the senders
beyond two. -/
theorem sendsSection_splits_iff (cfg : Config) (inputs : List Input)
    (distinct : Distinct inputs) :
    (SplitsPending cfg inputs ↔
      ∑ trigger ∈ landingTriggers cfg inputs, variantsOf inputs trigger =
        ∑ trigger ∈ landingTriggers cfg inputs, (1 + variantsWith cfg inputs .landed trigger +
          variantsWith cfg inputs .sendError trigger)) ∧
    ∀ senders,
      (∀ trigger ∈ landingTriggers cfg inputs, variantsOf inputs trigger = senders) →
      (∀ trigger ∈ landingTriggers cfg inputs, variantsWith cfg inputs .landed trigger = 1) →
      (SplitsPending cfg inputs ↔
        (landingTriggers cfg inputs).card * senders = (landingTriggers cfg inputs).card * 2 +
          ∑ trigger ∈ landingTriggers cfg inputs,
            variantsWith cfg inputs .sendError trigger) := by
  have general : SplitsPending cfg inputs ↔
      ∑ trigger ∈ landingTriggers cfg inputs, variantsOf inputs trigger =
        ∑ trigger ∈ landingTriggers cfg inputs, (1 + variantsWith cfg inputs .landed trigger +
          variantsWith cfg inputs .sendError trigger) := by
    rw [splitsPending_iff_rows rfl, ← attemptsOfLanded_landed, attemptsForLanded_eq distinct,
      attemptsOfLanded_eq distinct, attemptsOfLanded_eq distinct, landedTriggers_eq distinct,
      Finset.sum_add_distrib, Finset.sum_add_distrib, Finset.card_eq_sum_ones]
  exact ⟨general, fun senders fanOut once => general.trans (sum_variants_eq_iff fanOut once)⟩

/-- Two senders, one of which lands. -/
theorem sendsSection_splits_twoSenders :
    SplitsPending sampleConfig [.register sampleRegister, .register sampleRegister',
      .send sampleSend, sampleHit.input] :=
  ((sendsSection_splits_iff sampleConfig [.register sampleRegister, .register sampleRegister',
    .send sampleSend, sampleHit.input] (by decide +kernel)).2 2 (by decide +kernel)
      (by decide +kernel)).mpr (by decide +kernel)

/-- One trigger is sent by three senders, and one of them lands: the report has one losing
sibling and one attempt without a landing, where both lost to their sibling. -/
theorem sendsSection_missesSibling :
    let inputs := [.register sampleRegister, .register sampleRegister',
      .register { sampleRegister with senderId := 5, signature := Samples.signature 3 },
      sampleHit.input]
    let rows := records (runLoop sampleConfig inputs).2
    let report := FinalReport.sendsSection true
      ((runLoop sampleConfig inputs).1.agg.intoSummary sampleConfig.anchor)
    (report.losingSiblings = 1 ∧ attemptsOfLanded .unknownPending rows = 2) ∧
      (report.lostNoLand = 1 ∧ attemptsOfLost .unknownPending rows = 0) ∧
      ¬SplitsPending sampleConfig inputs := by
  decide +kernel

end Recorder

end SenderAnalysis

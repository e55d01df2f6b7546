import SenderAnalysis.TickTriggerBench.SendAccounts

/-!
# Every hit of the schedule ends somewhere

A hit of the schedule finds no transaction in the pool, or yields a command. A command that
the observer issued has not been offered yet, was refused, waits for the dispatcher, was
dropped because of its blockhash, is in flight, was lost when its report was refused, waits
for the finalizer, was abandoned in the queue when the finalizer returned, is pending there,
or has a final record. These lists together are the commands, each as often as it was issued
(`sends_accounted`). Nothing waits for a finalizer that has returned.

The requests in flight are never more than the limit, and every error that is reported is
counted once.
-/

set_option autoImplicit false

namespace SenderAnalysis.TickTriggerBench

open Observer (ObserverEffect)

namespace Observer

/-- The commands among what the observer offers. -/
def issued (effects : List ObserverEffect) : List SendCommand :=
  (sent effects).filterMap fun
    | .send cmd => some cmd
    | .tick _ | .matched _ => none

@[simp] theorem issued_append (first second : List ObserverEffect) :
    issued (first ++ second) = issued first ++ issued second := by
  simp [issued]

/-- A hit finds no transaction, or yields a command. -/
def Hits (effects : List ObserverEffect) : Prop :=
  counted .scheduleContainsTrue effects = counted .poolEmpty effects + (issued effects).length

theorem Hits.append {first second : List ObserverEffect} (hits : Hits first)
    (hits' : Hits second) : Hits (first ++ second) := by
  unfold Hits at *
  rw [counted_append, counted_append, issued_append, List.length_append]
  omega

theorem hits_fire (cfg : Config) (pool : TxPool) (slot : Nat) (tick : UInt8)
    (observedAt : Instant) : Hits (fire cfg pool slot tick observedAt).2 := by
  unfold fire
  split
  · split <;> simp [Hits, issued]
  · simp [Hits, issued]

theorem hits_countEntry (cfg : Config) (pool : TxPool) (state : SlotState)
    (obs : EntryObservation) : Hits (countEntry cfg pool state obs).effects := by
  unfold countEntry countNew countTick
  dsimp only
  split
  · simp [Hits, issued]
  · split
    · split
      · split
        · simp [Hits, issued]
        · refine @Hits.append [_] _ ?_ (hits_fire ..)
          simp [Hits, issued]
      · simp [Hits, issued]
    · simp [Hits, issued]

theorem hits_countObserved (cfg : Config) (observer : State) (obs : EntryObservation) :
    Hits (countObserved cfg observer obs).2.1 := by
  unfold countObserved
  dsimp only
  split
  · rfl
  · exact hits_countEntry ..

end Observer

namespace SendFlow

/-! ## The commands of the observer -/

/-- What the observer has performed. -/
def offered (events : List Event) : List ObserverEffect :=
  events.filterMap fun
    | .offered effect _ => some effect
    | _ => none

@[simp] theorem offered_append (first second : List Event) :
    offered (first ++ second) = offered first ++ offered second := List.filterMap_append

/-- All that the observer has decided to do. -/
def observed (state : State) (events : List Event) : List ObserverEffect :=
  offered events ++ state.offers

/-- Annotations say nothing of the observer. -/
theorem offered_annotate (batch : List Signature) (statuses : List (Option TransactionStatus)) :
    offered (annotate batch statuses) = [] := by
  induction batch, statuses using annotate.induct with
  | case1 sig batch status statuses ih => exact ih
  | case2 batch =>
    refine List.filterMap_eq_nil_iff.mpr fun event member => ?_
    cases batch with
    | nil => cases member
    | cons sig batch =>
      obtain ⟨other, _, rfl⟩ := List.mem_map.mp member
      rfl
  | case3 => simp [annotate, offered]

/-- Errors say nothing of the observer. -/
theorem offered_errorEvents (result : Except SendError String) :
    offered (errorEvents result) = [] := by
  unfold errorEvents
  split <;> rfl

/-- A step that leaves what the observer has to do as it is, and says nothing of it. -/
theorem observed_idle {state next : State} {events more : List Event}
    (same : next.offers = state.offers) (nothing : offered more = []) :
    observed next (events ++ more) = observed state events := by
  rw [observed, offered_append, nothing, same, List.append_nil, observed]

/-- What the observer decides to do at a step: nothing, what an entry asks for, or a match. -/
inductive Decides (cfg : Config) (state : State) : List ObserverEffect → Prop where
  | nothing : Decides cfg state []
  | entry (obs : EntryObservation) :
      Decides cfg state (Observer.countObserved cfg.observer state.observer obs).2.1
  | matched (ev : MatchEvent) : Decides cfg state [.trySend (.matched ev)]

theorem observed_step (cfg : Config) (state : State) (events : List Event) (input : Input) :
    ∃ more, Decides cfg state more ∧
      observed (step cfg state input).1 (events ++ (step cfg state input).2) =
        observed state events ++ more := by
  have does := does_step cfg state input
  generalize step cfg state input = result at does ⊢
  have idle {next : State} {more : List Event} (same : next.offers = state.offers)
      (nothing : offered more = []) : ∃ decided, Decides cfg state decided ∧
        observed next (events ++ more) = observed state events ++ decided :=
    ⟨[], .nothing, by rw [observed_idle same nothing, List.append_nil]⟩
  cases does with
  | observe obs observer offers skips counted idle through =>
    refine ⟨offers, ?_, ?_⟩
    · have entry : Decides cfg state _ := .entry obs
      rwa [counted] at entry
    · rw [observed, offered_append, observed, idle]
      simp [offered]
  | offer effect offers accepted next =>
    obtain ⟨sendQueue, matchEvents, frame⟩ := accept_frame { state with offers } effect accepted
    refine ⟨[], .nothing, ?_⟩
    rw [frame, observed, offered_append, observed, next, List.append_nil, List.append_assoc]
    rfl
  | lookUp ev lookups idle next =>
    have before : observed state events = offered events := by
      rw [observed, idle, List.append_nil]
    rw [before, observed, offered_append]
    by_cases found : state.pendingSigs.contains ev.signature = true
    · exact ⟨_, .matched ev, by rw [if_pos found]; simp [offered]⟩
    · exact ⟨[], .nothing, by rw [if_neg found]; simp [offered]⟩
  | respond index request result responseAt accepted found taker =>
    refine idle rfl ?_
    rw [offered_append, offered_errorEvents]
    rfl
  | answer statuses => exact idle rfl (offered_annotate _ _)
  | hangUp _ =>
    refine idle rfl (List.filterMap_eq_nil_iff.mpr fun event member => ?_)
    obtain ⟨ev, _, rfl⟩ := List.mem_map.mp member
    rfl
  | emit effect emissions accepted next =>
    obtain ⟨pendingSigs, fallbackQueue, frame⟩ := perform_frame { state with emissions } effect
    exact frame ▸ idle rfl rfl
  | still | pool | expire | register | finalizeSend | finalizeMatch | giveUp | ask | fail =>
    exact idle rfl rfl

theorem Decides.hits {cfg : Config} {state : State} {more : List ObserverEffect}
    (decides : Decides cfg state more) : Observer.Hits more := by
  cases decides with
  | entry obs => exact Observer.hits_countObserved ..
  | nothing | matched _ => rfl

/-- **Every hit finds no transaction or yields a command, in every run.** -/
theorem hits_run (cfg : Config) (inputs : List Input) :
    Observer.Hits (observed (run cfg inputs).1 (run cfg inputs).2) := by
  refine runAll_induction (motive := fun state events => Observer.Hits (observed state events))
    (fun state events hits input _ => ?_) rfl
  obtain ⟨more, decides, grown⟩ := observed_step cfg state events input
  exact grown ▸ hits.append decides.hits

/-! ## Limits and errors -/

/-- The requests in flight never exceed the limit. -/
theorem inFlight_le (cfg : Config) (inputs : List Input) (limited : cfg.maxInflight ≠ 0) :
    (run cfg inputs).1.inFlight.length ≤ cfg.maxInflight := by
  suffices preserved : ∀ (state : State) (input : Input),
      state.inFlight.length ≤ cfg.maxInflight →
        (step cfg state input).1.inFlight.length ≤ cfg.maxInflight from
    runAll_invariant preserved (Nat.zero_le _) inputs
  intro state input bound
  have does := does_step cfg state input
  generalize step cfg state input = result at does ⊢
  cases does with
  | offer effect offers accepted next =>
    obtain ⟨sendQueue, matchEvents, frame⟩ := accept_frame { state with offers } effect accepted
    exact frame ▸ bound
  | register cmd sendQueue sendAt next room =>
    rw [List.length_append]
    exact room limited
  | respond index request result responseAt accepted found taker =>
    exact Nat.le_trans (List.length_eraseIdx_le _ _) bound
  | emit effect emissions accepted next =>
    obtain ⟨pendingSigs, fallbackQueue, frame⟩ := perform_frame { state with emissions } effect
    exact frame ▸ bound
  | still | observe | lookUp | pool | expire | finalizeSend | finalizeMatch | giveUp | hangUp | ask
  | answer | fail => exact bound

/-- No report waits for a finalizer that has returned. -/
theorem sendEvents_returned (cfg : Config) (inputs : List Input) :
    (run cfg inputs).1.returned = true → (run cfg inputs).1.sendEvents = [] := by
  suffices preserved : ∀ (state : State) (input : Input),
      (state.returned = true → state.sendEvents = []) →
        (step cfg state input).1.returned = true → (step cfg state input).1.sendEvents = [] from
    runAll_invariant preserved (fun _ => rfl) inputs
  intro state input before
  have does := does_step cfg state input
  generalize step cfg state input = result at does ⊢
  intro returned
  cases does with
  | offer effect offers accepted next =>
    obtain ⟨sendQueue, matchEvents, frame⟩ := accept_frame { state with offers } effect accepted
    rw [frame] at returned ⊢
    exact before returned
  | respond index request result responseAt accepted found taker =>
    cases accepted with
    | false => exact before returned
    | true => exact absurd returned (by simp [taker rfl])
  | finalizeSend ev sendEvents now next idle =>
    rw [before returned] at next
    cases next
  | emit effect emissions accepted next =>
    obtain ⟨pendingSigs, fallbackQueue, frame⟩ := perform_frame { state with emissions } effect
    rw [frame] at returned ⊢
    exact before returned
  | hangUp idle => rfl
  | still | observe | lookUp | pool | expire | register | finalizeMatch | giveUp | ask | answer
  | fail => exact before returned

def Event.isSendError : Event → Bool
  | .sendHttpError | .sendNetworkError => true
  | _ => false

def Event.isFailedSend : Event → Bool
  | .responded ev _ => ev.error.isSome
  | _ => false

theorem annotate_errorless (batch : List Signature) (statuses : List (Option TransactionStatus)) :
    (annotate batch statuses).countP Event.isSendError = 0 ∧
      (annotate batch statuses).countP Event.isFailedSend = 0 := by
  induction batch, statuses using annotate.induct with
  | case1 sig batch status statuses ih =>
    simpa [annotate, Event.isSendError, Event.isFailedSend] using ih
  | case2 batch => cases batch <;> simp [annotate, Event.isSendError, Event.isFailedSend]
  | case3 => simp [annotate]

/-- Every error that is reported is counted once. -/
theorem errors_run (cfg : Config) (inputs : List Input) :
    (run cfg inputs).2.countP Event.isSendError = (run cfg inputs).2.countP Event.isFailedSend := by
  refine runAll_induction (motive := fun _ events =>
    events.countP Event.isSendError = events.countP Event.isFailedSend)
    (fun state events same input _ => ?_) rfl
  rw [List.countP_append, List.countP_append, same]
  congr 1
  have does := does_step cfg state input
  generalize step cfg state input = result at does ⊢
  cases does with
  | respond index request result responseAt accepted found taker =>
    cases result with
    | ok => rfl
    | error e => cases e <;> rfl
  | answer statuses => rw [(annotate_errorless _ _).1, (annotate_errorless _ _).2]
  | hangUp idle =>
    rw [List.countP_map, List.countP_map]
    rfl
  | still | observe | offer | lookUp | pool | expire | register | finalizeSend | finalizeMatch
  | giveUp | emit | ask | fail => rfl

/-! ## The ledger -/

/-- Where the commands are that the finalizer has not taken: not offered yet, refused by the
send queue, in it, dropped for the age of their blockhash, in flight, refused by the queue of
the reports, in it, or abandoned there. -/
def underway (state : State) (events : List Event) : List Origin :=
  (Observer.issued state.offers).map SendCommand.origin ++
    events.filterMap (about .sendQueueFull) ++ state.sendQueue.map SendCommand.origin ++
    events.filterMap (about .blockhashExpired) ++
    (state.inFlight.map fun request => request.cmd.origin) ++
    events.filterMap (about .sendEventQueueFull) ++ state.sendEvents.map SendEvent.origin ++
    events.filterMap (about .abandoned)

/-- Where the commands are that the observer issued, up to their final records. -/
def whereabouts (state : State) (events : List Event) : List Origin :=
  underway state events ++
    (Finalizer.pendingSends state.finalizer).map SendEvent.origin ++
    (Finalizer.records (decided state events)).map fun record => record.send.origin

/-- The commands the observer offered were accepted or refused. -/
theorem count_offered (key : Origin) (events : List Event) :
    ((Observer.issued (offered events)).map SendCommand.origin).count key =
      times (about .commanded) key events + times (about .sendQueueFull) key events := by
  induction events with
  | nil => rfl
  | cons event events ih =>
    have split : offered (event :: events) = offered [event] ++ offered events :=
      offered_append [event] events
    have one : ((Observer.issued (offered [event])).map SendCommand.origin).count key =
        times (about .commanded) key [event] + times (about .sendQueueFull) key [event] := by
      cases event with
      | offered effect accepted =>
        cases effect with
        | trySend output =>
          cases output with
          | send cmd =>
            cases accepted <;>
              simp [offered, Observer.issued, about, List.count_singleton]
          | tick ev | matched ev =>
            cases accepted <;> rfl
        | fetchAdd | fetchMin | fetchMax => cases accepted <;> rfl
      | _ => rfl
    have apart : ∀ kind : Event → Option Origin,
        times kind key (event :: events) = times kind key [event] + times kind key events :=
      fun kind => times_append kind key [event] events
    rw [split, Observer.issued_append, List.map_append, List.count_append, one, ih, apart, apart]
    omega

theorem received_origins (events : List Event) :
    (received events).map SendEvent.origin = events.filterMap (about .received) := by
  rw [received, List.map_filterMap]
  congr 1
  funext event
  cases event <;> rfl

/-- What holds of the sends at every moment. -/
structure Ledger (cfg : Config) (state : State) (events : List Event) : Prop where
  hits : counted .scheduleContainsTrue (observed state events) =
    counted .poolEmpty (observed state events) + (Observer.issued (observed state events)).length
  commands : ((Observer.issued (observed state events)).map SendCommand.origin).Perm
    (whereabouts state events)
  returned : state.returned = true → state.sendEvents = []
  limit : cfg.maxInflight ≠ 0 → state.inFlight.length ≤ cfg.maxInflight
  errors : events.countP Event.isSendError = events.countP Event.isFailedSend

/-- No two commands of the observer share a signature. -/
def DistinctCommands (state : State) (events : List Event) : Prop :=
  ((Observer.issued (observed state events)).map fun cmd => cmd.tx.signature).Nodup

instance (state : State) (events : List Event) : Decidable (DistinctCommands state events) :=
  inferInstanceAs (Decidable (List.Nodup _))

section Distinct

variable {cfg : Config} {inputs : List Input}

/-- **Every command is under way or was taken by the finalizer**, once for each time it was
issued. -/
theorem commands_underway (cfg : Config) (inputs : List Input) :
    ((Observer.issued (observed (run cfg inputs).1 (run cfg inputs).2)).map
      SendCommand.origin).Perm (underway (run cfg inputs).1 (run cfg inputs).2 ++
        (received (run cfg inputs).2).map SendEvent.origin) := by
  refine List.perm_iff_count.mpr fun key => ?_
  have account := account_run cfg inputs key
  have commanded := account.commanded
  have registered := account.registered
  have reported := account.reported
  rw [observed, Observer.issued_append, List.map_append, List.count_append, count_offered,
    received_origins, underway]
  simp only [List.count_append]
  unfold times waiting flying reporting at *
  omega

/-- No two of the sends on their way share a signature. -/
theorem underway_distinct (distinct : DistinctCommands (run cfg inputs).1 (run cfg inputs).2) :
    ((underway (run cfg inputs).1 (run cfg inputs).2 ++
      (received (run cfg inputs).2).map SendEvent.origin).map Origin.signature).Nodup := by
  have perm := (commands_underway cfg inputs).map Origin.signature
  rw [List.map_map] at perm
  exact perm.nodup_iff.mp distinct

theorem received_distinct (distinct : DistinctCommands (run cfg inputs).1 (run cfg inputs).2) :
    Finalizer.Distinct (received (run cfg inputs).2) := by
  have both := underway_distinct distinct
  rw [List.map_append, List.map_map] at both
  exact (List.nodup_append.mp both).2.1

/-- Every command is somewhere, once for each time it was issued. -/
theorem commands_perm (distinct : DistinctCommands (run cfg inputs).1 (run cfg inputs).2) :
    ((Observer.issued (observed (run cfg inputs).1 (run cfg inputs).2)).map
      SendCommand.origin).Perm (whereabouts (run cfg inputs).1 (run cfg inputs).2) := by
  have finalized := (finalizer_accounted cfg inputs (received_distinct distinct)).perm.map
    SendEvent.origin
  rw [List.map_append, List.map_map] at finalized
  refine (commands_underway cfg inputs).trans ?_
  rw [whereabouts, List.append_assoc]
  exact (finalized.symm.trans List.perm_append_comm).append_left _

end Distinct

/-- **Every hit of the schedule and every command is accounted for, in every
interleaving** in which no two commands share a signature. -/
theorem sends_accounted (cfg : Config) (inputs : List Input)
    (distinct : DistinctCommands (run cfg inputs).1 (run cfg inputs).2) :
    Ledger cfg (run cfg inputs).1 (run cfg inputs).2 where
  hits := hits_run cfg inputs
  commands := commands_perm distinct
  returned := sendEvents_returned cfg inputs
  limit := inFlight_le cfg inputs
  errors := errors_run cfg inputs

/-! ## A send that lands, and one that comes too late -/

def sampleConfig : Config where
  observer := ⟨[(1000, 1), (1000, 2)]⟩
  maxInflight := 8
  blockhashMaxAge := 50000000000
  deadline := 30000000000
  batchSize := 256

def sampleObs (slot numHashes : Nat) (hash : UInt8) (signatures : List Signature) :
    EntryObservation where
  source := .shredStream
  observedAt := 0
  slot := slot
  entryIndex := 0
  numHashes := numHashes
  entryHash := Vector.replicate 32 hash
  txCount := if signatures = [] then 0 else 1
  signatures := signatures
  firstShredAt := none
  leader := none

def sampleSignature (byte : UInt8) : Signature := Vector.replicate 64 byte

/-- The first tick of slot 1000 sends a transaction, which is seen in the next entry. -/
def landingInputs : List Input :=
  [.insert 1000 1 ⟨[], sampleSignature 0, Hash.default, 0⟩, .observe (sampleObs 999 5 0 []),
    .observe (sampleObs 1000 62500 1 []), .offer true, .offer true, .offer true, .offer true,
    .dispatch 1 2, .observe (sampleObs 1000 10 2 [sampleSignature 0]), .lookUp, .offer true,
    .respond 0 (.error (.network "timeout")) 5 true, .finalizeSend 6, .finalizeMatch, .emit true,
    .emit true]

/-- The second tick sends another one, and the finalizer returns before it takes the
report. -/
def closingInputs : List Input :=
  landingInputs ++
    [.insert 1000 2 ⟨[], sampleSignature 1, Hash.default, 0⟩, .observe (sampleObs 1000 62490 3 []),
      .offer true, .offer true, .offer true, .offer true, .dispatch 7 8,
      .respond 0 (.ok "sent") 9 true, .drain, .hangUp]

theorem sends_accounted_closing :
    Ledger sampleConfig (run sampleConfig closingInputs).1 (run sampleConfig closingInputs).2 ∧
      ((Finalizer.records (decided (run sampleConfig closingInputs).1
        (run sampleConfig closingInputs).2)).map fun record =>
          (record.send.signature, record.status)) = [(sampleSignature 0, .observed)] ∧
      ((run sampleConfig closingInputs).2.filterMap (about .abandoned)).map Origin.signature =
        [sampleSignature 1] :=
  ⟨sends_accounted sampleConfig closingInputs (by decide +kernel), by decide +kernel,
    by decide +kernel⟩

end SendFlow

end SenderAnalysis.TickTriggerBench

import SenderAnalysis.TickTriggerBench.SendLedger

/-!
# The signatures that are waited for

The dispatcher adds a signature to the pending ones before it sends, the finalizer takes it
out when it decides on the record, and the observer looks signatures up in between. While no
two commands share a signature, the pending ones are at every moment those of the sends in
flight, of the reports that wait or that nobody took, of the sends pending in the finalizer,
and of the records decided but not yet emitted (`watches_run`).

So a signature of an entry is found exactly if it is that of such a send at the moment it is
looked up, and the observer looks up every signature of the entries it takes
(`landings_noticed`). A send whose report nobody took is matched for ever, since nothing takes
its signature out.
-/

set_option autoImplicit false

namespace SenderAnalysis.TickTriggerBench

namespace Finalizer

/-! ## What the finalizer does with a signature -/

/-- The signatures that effects take out of the pending ones. -/
def removals (effects : List FinalizerEffect) : List Signature :=
  (sent effects).filterMap fun
    | .removePending sig => some sig
    | .final _ | .pushFallback _ => none

@[simp] theorem removals_nil : removals [] = [] := rfl

@[simp] theorem removals_append (first second : List FinalizerEffect) :
    removals (first ++ second) = removals first ++ removals second := by
  simp [removals]

@[simp] theorem removals_emitObserved (sig : Signature) (p : PendingRecord) :
    removals (emitObserved sig p) = [sig] := rfl

@[simp] theorem removals_emitFinal (sig : Signature) (p : PendingRecord) :
    removals (emitFinal sig p) = [sig] := by
  unfold emitFinal
  dsimp only
  split <;> rfl

/-- Whether a send with the signature is pending. -/
def held (sig : Signature) (map : HashTable Signature PendingRecord) : Nat :=
  if (map.get sig).isSome then 1 else 0

theorem held_insert (sig own : Signature) (map : HashTable Signature PendingRecord)
    (p : PendingRecord) : held sig (map.insert own p) = if own = sig then 1 else held sig map := by
  unfold held
  rw [HashTable.get_insert]
  by_cases same : own = sig
  · simp [same]
  · simp [same, Ne.symm same]

theorem held_remove (sig own : Signature) (map : HashTable Signature PendingRecord) :
    held sig (map.remove own) = if own = sig then 0 else held sig map := by
  unfold held
  rw [HashTable.get_remove]
  by_cases same : own = sig
  · simp [same]
  · simp [same, Ne.symm same]

theorem held_le_one (sig : Signature) (map : HashTable Signature PendingRecord) :
    held sig map ≤ 1 := by
  unfold held
  split <;> simp

/-- A signature that comes in, or is held, is held afterwards or taken out; and it is not
taken out more often than it came in. -/
structure Passes (sig : Signature) (incoming : Nat) (finalizer : State)
    (result : State × List FinalizerEffect) : Prop where
  atMost : held sig result.1.map + (removals result.2).count sig ≤
    held sig finalizer.map + incoming
  kept : 0 < held sig finalizer.map + incoming →
    0 < held sig result.1.map + (removals result.2).count sig

theorem passes_handleSend (sig : Signature) (finalizer : State) (ev : SendEvent) (now : Instant) :
    Passes sig (if ev.signature = sig then 1 else 0) finalizer (handleSend finalizer ev now) := by
  have bound := held_le_one sig finalizer.map
  unfold handleSend
  dsimp only
  by_cases early : (finalizer.earlyMatches.get ev.signature).isSome
  · rw [if_pos early]
    constructor <;> simp only [held_remove, removals_emitObserved, List.count_singleton, beq_iff_eq]
    all_goals split <;> omega
  · rw [if_neg early]
    constructor <;> simp only [held_insert, removals_nil, List.count_nil]
    all_goals split <;> omega

/-- A pending send is taken out of the map, and its signature out of the pending ones. -/
theorem passes_taken {sig own : Signature} {finalizer : State} {p : PendingRecord}
    (found : finalizer.map.get own = some p) {effects : List FinalizerEffect}
    (takes : removals effects = [own]) :
    Passes sig 0 finalizer ({ finalizer with map := finalizer.map.remove own }, effects) := by
  have bound := held_le_one sig finalizer.map
  by_cases same : own = sig
  · have here : held sig finalizer.map = 1 := by simp [held, ← same, found]
    constructor <;> simp [held_remove, takes, same, here]
  · constructor <;> simp [held_remove, takes, same]

theorem passes_handleMatch (sig : Signature) (finalizer : State) (ev : MatchEvent) :
    Passes sig 0 finalizer (handleMatch finalizer ev) := by
  unfold handleMatch
  dsimp only
  split
  · next p found => exact passes_taken found rfl
  · exact ⟨Nat.le_refl _, id⟩

theorem passes_giveUp (sig : Signature) (finalizer : State) (other : Signature) :
    Passes sig 0 finalizer (giveUp finalizer other) := by
  unfold giveUp
  split
  · exact ⟨Nat.le_refl _, id⟩
  · next p found => exact passes_taken found (removals_emitFinal other p)

theorem passes_giveUpAll (sig : Signature) (finalizer : State) (sigs : List Signature) :
    Passes sig 0 finalizer (runAll giveUp finalizer sigs) := by
  induction sigs generalizing finalizer with
  | nil => exact ⟨Nat.le_refl _, id⟩
  | cons other rest ih =>
    obtain ⟨atMost, kept⟩ := passes_giveUp sig finalizer other
    obtain ⟨atMost', kept'⟩ := ih (giveUp finalizer other).1
    rw [runAll_cons]
    constructor <;> simp only [removals_append, List.count_append] <;> omega

end Finalizer

namespace SendFlow

open Finalizer (held removals)

/-! ## The sends that are waited for -/

/-- The send whose report nobody takes: the queue refuses it, or it is abandoned there. -/
def unreported (event : Event) : Option Origin :=
  (about .sendEventQueueFull event).or (about .abandoned event)

theorem unreported_nil {events : List Event}
    (silent : ∀ stage, ∀ event ∈ events, about stage event = none) :
    events.filterMap unreported = [] := by
  refine List.filterMap_eq_nil_iff.mpr fun event member => ?_
  rw [unreported, silent _ event member, silent _ event member]
  rfl

/-- The signatures that were registered and that the finalizer has not taken. -/
def reports (state : State) (events : List Event) : List Signature :=
  (state.inFlight.map fun request => request.cmd.tx.signature) ++
    (events.filterMap unreported).map Origin.signature ++
    state.sendEvents.map SendEvent.signature

/-- The signatures of the sends that were made and have no record yet. -/
def watched (state : State) (events : List Event) : List Signature :=
  reports state events ++ state.finalizer.map.entries.map Sigma.fst ++ removals state.emissions

/-- How often the finalizer holds a signature, or is about to take it out. -/
def finalizing (sig : Signature) (state : State) : Nat :=
  held sig state.finalizer.map + (removals state.emissions).count sig

theorem mem_watched {sig : Signature} {state : State} {events : List Event} :
    sig ∈ watched state events ↔ sig ∈ reports state events ∨ 0 < finalizing sig state := by
  have keys : sig ∈ state.finalizer.map.entries.map Sigma.fst ↔
      (state.finalizer.map.get sig).isSome := by
    rw [List.mem_map, Option.isSome_iff_exists]
    constructor
    · rintro ⟨⟨_, p⟩, member, rfl⟩
      exact ⟨p, HashTable.mem_entries.mp member⟩
    · rintro ⟨p, found⟩
      exact ⟨⟨sig, p⟩, HashTable.mem_entries.mpr found, rfl⟩
  have count : 0 < finalizing sig state ↔
      (state.finalizer.map.get sig).isSome ∨ sig ∈ removals state.emissions := by
    unfold finalizing held
    rw [← List.count_pos_iff]
    split
    · next here => exact ⟨fun _ => .inl here, fun _ => by omega⟩
    · next absent => exact ⟨fun some => .inr (by omega), fun some => by
        have := some.resolve_left absent
        omega⟩
  rw [watched, List.mem_append, List.mem_append, keys, count, or_assoc]

/-- The finalizer does not take out more than it has received. -/
theorem finalizing_le (cfg : Config) (inputs : List Input) (sig : Signature) :
    held sig (run cfg inputs).1.finalizer.map +
        (removals (decided (run cfg inputs).1 (run cfg inputs).2)).count sig ≤
      ((received (run cfg inputs).2).map SendEvent.signature).count sig := by
  refine finalizer_induction (motive := fun sends finalizer effects =>
    held sig finalizer.map + (removals effects).count sig ≤
      (sends.map SendEvent.signature).count sig) (Nat.le_refl _) ?_ ?_ ?_ cfg inputs
  · intro sends finalizer effects bound ev now
    have passes := (Finalizer.passes_handleSend sig finalizer ev now).atMost
    simp only [Finalizer.removals_append, List.map_append, List.count_append, List.map_cons,
      List.map_nil, List.count_singleton, beq_iff_eq]
    omega
  · intro sends finalizer effects bound ev
    have passes := (Finalizer.passes_handleMatch sig finalizer ev).atMost
    simp only [Finalizer.removals_append, List.count_append]
    omega
  · intro sends finalizer effects bound sigs
    have passes := (Finalizer.passes_giveUpAll sig finalizer sigs).atMost
    simp only [Finalizer.removals_append, List.count_append]
    omega

/-- The sends that are pending are those that were made and have no record yet. -/
def Watches (state : State) (events : List Event) : Prop :=
  ∀ sig, sig ∈ state.pendingSigs ↔ sig ∈ reports state events ∨ 0 < finalizing sig state

section Step

variable {state next : State} {events more : List Event}

/-- A step that leaves the sends that were made as they are. -/
theorem Watches.idle (watches : Watches state events)
    (pending : next.pendingSigs = state.pendingSigs)
    (flight : next.inFlight = state.inFlight ∧ next.sendEvents = state.sendEvents)
    (finalizer : next.finalizer = state.finalizer ∧ next.emissions = state.emissions)
    (silent : more.filterMap unreported = []) :
    Watches next (events ++ more) := by
  intro sig
  rw [pending, reports, flight.1, flight.2, List.filterMap_append, silent, List.append_nil,
    finalizing, finalizer.1, finalizer.2]
  exact watches sig

/-- A step of the finalizer that passes every signature on. -/
theorem Watches.finalize (watches : Watches state events)
    (pending : next.pendingSigs = state.pendingSigs) (flight : next.inFlight = state.inFlight)
    (idle : state.emissions = []) (incoming : List Signature)
    (taken : state.sendEvents.map SendEvent.signature =
      incoming ++ next.sendEvents.map SendEvent.signature)
    (passes : ∀ sig, Finalizer.Passes sig (incoming.count sig) state.finalizer
      (next.finalizer, next.emissions))
    (silent : more.filterMap unreported = []) :
    Watches next (events ++ more) := by
  intro sig
  obtain ⟨atMost, kept⟩ := passes sig
  have before := watches sig
  rw [reports, finalizing, idle, taken] at before
  rw [pending, before, reports, flight, List.filterMap_append, silent, List.append_nil, finalizing]
  simp only [List.mem_append, ← @List.count_pos_iff _ _ _ sig incoming, Finalizer.removals_nil,
    List.count_nil] at *
  constructor
  · rintro (((inFlight | lost) | incoming' | waits) | holds)
    · exact .inl (.inl (.inl inFlight))
    · exact .inl (.inl (.inr lost))
    · exact .inr (kept (by omega))
    · exact .inl (.inr waits)
    · exact .inr (kept (by omega))
  · rintro (((inFlight | lost) | waits) | holds)
    · exact .inl (.inl (.inl inFlight))
    · exact .inl (.inl (.inr lost))
    · exact .inl (.inr (.inr waits))
    · by_cases held : 0 < Finalizer.held sig state.finalizer.map
      · exact .inr (by omega)
      · exact .inl (.inr (.inl (by omega)))

/-- A request that is answered is reported, or its report is lost. -/
theorem Watches.respond (watches : Watches state events) {index : Nat} {request : InFlight}
    (found : state.inFlight[index]? = some request) (result : Except SendError String)
    (responseAt : Instant) (accepted : Bool) :
    Watches
      { state with
        inFlight := state.inFlight.eraseIdx index
        sendEvents := if accepted then
          state.sendEvents ++ [request.sendEvent result responseAt] else state.sendEvents }
      (events ++ (errorEvents result ++
        [.responded (request.sendEvent result responseAt) accepted])) := by
  intro sig
  have before := watches sig
  have requests : sig ∈ state.inFlight.map (fun other => other.cmd.tx.signature) ↔
      sig ∈ (state.inFlight.eraseIdx index).map (fun other => other.cmd.tx.signature) ∨
        sig = request.cmd.tx.signature := by
    have split := List.getElem_cons_eraseIdx_perm (List.getElem?_eq_some_iff.mp found).1
    rw [(List.getElem?_eq_some_iff.mp found).2] at split
    rw [← (split.map fun other => other.cmd.tx.signature).mem_iff, List.map_cons, List.mem_cons,
      or_comm]
  have silent : (errorEvents result).filterMap unreported = [] :=
    unreported_nil fun stage => about_errorEvents stage result
  change sig ∈ state.pendingSigs ↔ _ ∨ 0 < finalizing sig state
  rw [before, reports, reports, List.filterMap_append, List.filterMap_append, silent]
  simp only [List.mem_append, requests]
  cases accepted
  · have lost : List.filterMap unreported
        [.responded (request.sendEvent result responseAt) false] = [request.cmd.origin] := rfl
    rw [lost]
    simp only [List.nil_append, List.map_append, List.mem_append, List.map_cons, List.map_nil,
      List.mem_singleton, Bool.false_eq_true, if_false]
    change _ ↔ ((_ ∨ _ ∨ sig = request.cmd.tx.signature) ∨ _) ∨ _
    simp only [or_assoc, or_comm, or_left_comm]
  · have lost : List.filterMap unreported
        [.responded (request.sendEvent result responseAt) true] = [] := rfl
    rw [lost]
    simp only [List.append_nil, List.map_append, List.mem_append, List.map_cons, List.map_nil,
      List.mem_singleton, if_true]
    change _ ↔ ((_ ∨ _) ∨ _ ∨ sig = request.cmd.tx.signature) ∨ _
    simp only [or_assoc, or_comm, or_left_comm]

/-- A signature is registered before its send. -/
theorem Watches.register (watches : Watches state events) (cmd : SendCommand)
    (sendQueue : List SendCommand) (sendAt : Instant) :
    Watches
      { state with
        sendQueue
        pendingSigs := state.pendingSigs.insert cmd.tx.signature
        inFlight := state.inFlight ++ [⟨cmd, sendAt⟩] }
      (events ++ [.registered cmd]) := by
  intro sig
  have before := watches sig
  change sig ∈ state.pendingSigs.insert cmd.tx.signature ↔ _ ∨ 0 < finalizing sig state
  have silent : List.filterMap unreported [.registered cmd] = [] := rfl
  rw [List.mem_insert_iff, before, reports, reports, List.filterMap_append, silent, List.append_nil]
  simp only [List.map_append, List.mem_append, List.map_cons, List.map_nil, List.mem_singleton]
  simp only [or_comm, or_left_comm]

/-- What waits when the finalizer returns has no record and will have none. -/
theorem Watches.hangUp (watches : Watches state events) :
    Watches { state with sendEvents := [], matchEvents := [], returned := true }
      (events ++ state.sendEvents.map .abandoned) := by
  intro sig
  have abandoned : (state.sendEvents.map Event.abandoned).filterMap unreported =
      state.sendEvents.map SendEvent.origin := by
    rw [List.filterMap_map, ← List.filterMap_eq_map]
    rfl
  have before := watches sig
  change sig ∈ state.pendingSigs ↔ _ ∨ 0 < finalizing sig state
  rw [before, reports, reports, List.filterMap_append, abandoned, List.map_append, List.map_map]
  simp only [List.mem_append, List.map_nil, List.not_mem_nil, or_false, or_assoc]
  rfl

/-- A signature that is taken out of the pending ones must be that of no other send. -/
theorem Watches.emit (watches : Watches state events) {effect : Finalizer.FinalizerEffect}
    {emissions : List Finalizer.FinalizerEffect} (next : state.emissions = effect :: emissions)
    (alone : ∀ sig, sig ∈ removals [effect] →
      sig ∉ reports state events ∧ finalizing sig state ≤ 1) (accepted : Bool) :
    Watches (perform { state with emissions } effect) (events ++ [.emitted effect accepted]) := by
  intro sig
  have before := watches sig
  obtain ⟨pendingSigs, fallbackQueue, frame⟩ := perform_frame { state with emissions } effect
  have silent : List.filterMap unreported [.emitted effect accepted] = [] := rfl
  have reported : reports (perform { state with emissions } effect)
      (events ++ [.emitted effect accepted]) = reports state events := by
    rw [frame, reports, List.filterMap_append, silent, List.append_nil]
    rfl
  have emitted' : finalizing sig state = (removals [effect]).count sig +
      finalizing sig (perform { state with emissions } effect) := by
    rw [finalizing, frame, finalizing, next, ← List.singleton_append,
      Finalizer.removals_append, List.count_append]
    dsimp only
    omega
  rw [reported]
  have kept : sig ∉ removals [effect] →
      finalizing sig (perform { state with emissions } effect) = finalizing sig state := by
    intro other
    rw [emitted', List.count_eq_zero.mpr other, Nat.zero_add]
  cases effect with
  | trySend output =>
    cases output with
    | removePending own =>
      change sig ∈ state.pendingSigs.filter (fun other => other ≠ own) ↔ _
      rw [List.mem_filter, decide_eq_true_eq]
      by_cases same : sig = own
      · obtain ⟨absent, once⟩ := alone sig (same ▸ List.mem_singleton_self _)
        have here : (removals [.trySend (.removePending own)]).count sig = 1 := by
          rw [same]
          exact List.count_singleton_self
        constructor
        · exact fun pending => absurd same pending.2
        · rintro (reported | holds)
          · exact absurd reported absent
          · omega
      · rw [kept fun member => same (List.mem_singleton.mp member), and_iff_left same]
        exact before
    | pushFallback own | final record =>
      rw [kept List.not_mem_nil]
      exact before
  | fetchAdd | fetchMin | fetchMax =>
    rw [kept List.not_mem_nil]
    exact before

end Step

/-- A prefix of a run has no more commands than the run. -/
theorem distinct_past {cfg : Config} {past : List Input} {input : Input}
    (distinct : DistinctCommands (run cfg (past ++ [input])).1 (run cfg (past ++ [input])).2) :
    DistinctCommands (run cfg past).1 (run cfg past).2 := by
  rw [run, runAll_concat] at distinct
  obtain ⟨more, _, grown⟩ := observed_step cfg (run cfg past).1 (run cfg past).2 input
  unfold DistinctCommands at *
  change (List.map _ (Observer.issued (observed (step cfg (run cfg past).1 input).1
    ((run cfg past).2 ++ (step cfg (run cfg past).1 input).2)))).Nodup at distinct
  rw [grown, Observer.issued_append, List.map_append] at distinct
  exact (List.nodup_append.mp distinct).1

/-- What the finalizer is about to take out is not on its way to it. -/
theorem finalizing_alone {cfg : Config} {inputs : List Input}
    (distinct : DistinctCommands (run cfg inputs).1 (run cfg inputs).2) {sig : Signature}
    (decided' : sig ∈ removals (run cfg inputs).1.emissions) :
    sig ∉ reports (run cfg inputs).1 (run cfg inputs).2 ∧
      finalizing sig (run cfg inputs).1 ≤ 1 := by
  have bound := finalizing_le cfg inputs sig
  have once := List.nodup_iff_count_le_one.mp (underway_distinct distinct) sig
  rw [List.map_append, List.count_append, List.map_map] at once
  rw [decided, Finalizer.removals_append, List.count_append] at bound
  change List.count sig _ + List.count sig (List.map SendEvent.signature _) ≤ 1 at once
  have here := List.count_pos_iff.mpr decided'
  constructor
  · intro reported
    have among : sig ∈ (underway (run cfg inputs).1 (run cfg inputs).2).map Origin.signature := by
      have either : ∀ origin, origin ∈ (run cfg inputs).2.filterMap unreported →
          origin ∈ (run cfg inputs).2.filterMap (about .sendEventQueueFull) ∨
            origin ∈ (run cfg inputs).2.filterMap (about .abandoned) := by
        intro origin member
        obtain ⟨event, among, lost⟩ := List.mem_filterMap.mp member
        rcases Option.or_eq_some_iff.mp lost with refused | ⟨_, abandoned⟩
        · exact .inl (List.mem_filterMap.mpr ⟨event, among, refused⟩)
        · exact .inr (List.mem_filterMap.mpr ⟨event, among, abandoned⟩)
      unfold reports at reported
      unfold underway
      simp only [List.map_append, List.mem_append, List.map_map] at reported ⊢
      rcases reported with (inFlight | lost) | waits
      · exact .inl (.inl (.inl (.inr inFlight)))
      · obtain ⟨origin, member, rfl⟩ := List.mem_map.mp lost
        rcases either origin member with refused | abandoned
        · exact .inl (.inl (.inr (List.mem_map_of_mem refused)))
        · exact .inr (List.mem_map_of_mem abandoned)
      · exact .inl (.inr waits)
    have more := List.count_pos_iff.mpr among
    omega
  · unfold finalizing
    omega

theorem watches_run (cfg : Config) (inputs : List Input)
    (distinct : DistinctCommands (run cfg inputs).1 (run cfg inputs).2) :
    Watches (run cfg inputs).1 (run cfg inputs).2 := by
  induction inputs using List.reverseRecOn with
  | nil => exact fun sig => by simp [run, reports, finalizing, held]
  | append_singleton past input ih =>
    have distinct' := distinct_past distinct
    have watches := ih distinct'
    have alone := fun sig => @finalizing_alone cfg past distinct' sig
    have last : run cfg (past ++ [input]) = ((step cfg (run cfg past).1 input).1,
        (run cfg past).2 ++ (step cfg (run cfg past).1 input).2) := runAll_concat ..
    rw [last]
    clear last distinct distinct' ih
    have does := does_step cfg (run cfg past).1 input
    generalize run cfg past = before at watches alone does ⊢
    generalize step cfg before.1 input = result at does ⊢
    cases does with
    | still | observe | lookUp | pool | expire | ask | fail =>
      exact watches.idle rfl ⟨rfl, rfl⟩ ⟨rfl, rfl⟩ rfl
    | hangUp idle => exact watches.hangUp
    | offer effect offers accepted next =>
      obtain ⟨sendQueue, matchEvents, frame⟩ :=
        accept_frame { before.1 with offers } effect accepted
      exact frame ▸ watches.idle rfl ⟨rfl, rfl⟩ ⟨rfl, rfl⟩ rfl
    | register cmd sendQueue sendAt next room => exact watches.register cmd sendQueue sendAt
    | respond index request result responseAt accepted found taker =>
      exact watches.respond found result responseAt accepted
    | finalizeSend ev sendEvents now next idle =>
      refine watches.finalize rfl rfl idle [ev.signature] ?_ ?_ rfl
      · rw [next]
        rfl
      · intro sig
        have passes := Finalizer.passes_handleSend sig before.1.finalizer ev now
        rw [List.count_singleton]
        simpa using passes
    | finalizeMatch ev matchEvents next idle =>
      exact watches.finalize rfl rfl idle [] rfl
        (fun sig => Finalizer.passes_handleMatch sig before.1.finalizer ev) rfl
    | giveUp sigs drained idle =>
      exact watches.finalize rfl rfl idle [] rfl
        (fun sig => Finalizer.passes_giveUpAll sig before.1.finalizer sigs) rfl
    | emit effect emissions accepted next =>
      refine watches.emit next (fun sig member => alone sig ?_) accepted
      rw [next, ← List.singleton_append, Finalizer.removals_append]
      exact List.mem_append_left _ member
    | answer statuses =>
      exact watches.idle rfl ⟨rfl, rfl⟩ ⟨rfl, rfl⟩
        (unreported_nil fun stage => about_annotate stage _ _)

/-! ## What the observer looks up -/

/-- The entries that the observer took, but those whose signatures it skips. -/
def entriesTaken (events : List Event) : List EntryObservation :=
  events.filterMap fun
    | .observed obs false => some obs
    | _ => none

/-- What was looked up, with whether it was found. -/
def lookedUp (events : List Event) : List (MatchEvent × Bool) :=
  events.filterMap fun
    | .lookedUp ev found => some (ev, found)
    | _ => none

@[simp] theorem entriesTaken_append (first second : List Event) :
    entriesTaken (first ++ second) = entriesTaken first ++ entriesTaken second :=
  List.filterMap_append

@[simp] theorem lookedUp_append (first second : List Event) :
    lookedUp (first ++ second) = lookedUp first ++ lookedUp second := List.filterMap_append

/-- The matches among what the observer offers. -/
def matched (effects : List Observer.ObserverEffect) : List MatchEvent :=
  (sent effects).filterMap fun
    | .matched ev => some ev
    | .tick _ | .send _ => none

@[simp] theorem matched_append (first second : List Observer.ObserverEffect) :
    matched (first ++ second) = matched first ++ matched second := by
  simp [matched]

theorem matched_fire (cfg : Observer.Config) (pool : TxPool) (slot : Nat) (tick : UInt8)
    (observedAt : Instant) : matched (Observer.fire cfg pool slot tick observedAt).2 = [] := by
  unfold Observer.fire
  split
  · split <;> rfl
  · rfl

theorem matched_countEntry (cfg : Observer.Config) (pool : TxPool) (state : SlotState)
    (obs : EntryObservation) : matched (Observer.countEntry cfg pool state obs).effects = [] := by
  unfold Observer.countEntry Observer.countNew Observer.countTick
  dsimp only
  split
  · rfl
  · split
    · split
      · split
        · rfl
        · exact matched_fire ..
      · rfl
    · rfl

/-- An entry with transactions is no tick, so its signatures are not skipped. -/
theorem countEntry_skips (cfg : Observer.Config) (pool : TxPool) (state : SlotState)
    {obs : EntryObservation} (transactions : obs.txCount ≠ 0) :
    (Observer.countEntry cfg pool state obs).skips = false := by
  unfold Observer.countEntry Observer.countNew
  simp only [if_neg transactions]
  split <;> rfl

/-- Before its signatures are looked up, an entry yields no match, and an entry with
transactions is not skipped. -/
theorem countObserved_quiet (cfg : Observer.Config) (observer : Observer.State)
    (obs : EntryObservation) :
    matched (Observer.countObserved cfg observer obs).2.1 = [] ∧
      ((Observer.countObserved cfg observer obs).2.2 = true → obs.txCount = 0) := by
  unfold Observer.countObserved
  dsimp only
  split
  · exact ⟨rfl, fun skips => nomatch skips⟩
  · refine ⟨matched_countEntry .., fun skips => ?_⟩
    by_contra transactions
    rw [countEntry_skips _ _ _ transactions] at skips
    cases skips

/-- What the observer looks up, and what it makes of it. -/
structure LooksUp (state : State) (events : List Event) : Prop where
  /-- The signatures of the entries taken are looked up one after the other. -/
  each : (lookedUp events).map (fun look => look.1.signature) ++
      state.lookups.map MatchEvent.signature =
    (entriesTaken events).flatMap EntryObservation.signatures
  skipped : ∀ obs, .observed obs true ∈ events → obs.txCount = 0
  /-- What is found is matched, and nothing else. -/
  found : matched (observed state events) = ((lookedUp events).filter Prod.snd).map Prod.fst

/-- An event that says nothing of entries and look-ups. -/
def Event.isElsewhere : Event → Bool
  | .observed _ _ | .lookedUp _ _ => false
  | _ => true

theorem LooksUp.elsewhere {state next : State} {events more : List Event}
    (looks : LooksUp state events) (same : next.lookups = state.lookups)
    (undecided : observed next (events ++ more) = observed state events)
    (others : ∀ event ∈ more, event.isElsewhere = true) : LooksUp next (events ++ more) := by
  have untaken : entriesTaken more = [] := by
    refine List.filterMap_eq_nil_iff.mpr fun event member => ?_
    have other := others event member
    cases event with
    | observed | lookedUp => cases other
    | _ => rfl
  have unlooked : lookedUp more = [] := by
    refine List.filterMap_eq_nil_iff.mpr fun event member => ?_
    have other := others event member
    cases event with
    | observed | lookedUp => cases other
    | _ => rfl
  refine ⟨?_, fun obs member => ?_, ?_⟩
  · rw [lookedUp_append, entriesTaken_append, untaken, unlooked, same, List.append_nil,
      List.append_nil]
    exact looks.each
  · rcases List.mem_append.mp member with earlier | new
    · exact looks.skipped obs earlier
    · cases others _ new
  · rw [undecided, lookedUp_append, unlooked, List.append_nil]
    exact looks.found

theorem errorEvents_elsewhere (result : Except SendError String) :
    ∀ event ∈ errorEvents result, event.isElsewhere = true := by
  unfold errorEvents
  split <;> simp [Event.isElsewhere]

theorem annotate_elsewhere (batch : List Signature) (statuses : List (Option TransactionStatus)) :
    ∀ event ∈ annotate batch statuses, event.isElsewhere = true := by
  induction batch, statuses using annotate.induct with
  | case1 sig batch status statuses ih =>
    intro event member
    rcases List.mem_cons.mp member with rfl | later
    · rfl
    · exact ih event later
  | case2 batch => cases batch <;> simp [annotate, Event.isElsewhere]
  | case3 => simp [annotate]

/-- The observer takes an entry when it is through with the last one. -/
theorem LooksUp.observe {cfg : Config} {state : State} {events : List Event}
    (looks : LooksUp state events) (obs : EntryObservation) {observer : Observer.State}
    {offers : List Observer.ObserverEffect} {skips : Bool}
    (counted : Observer.countObserved cfg.observer state.observer obs = (observer, offers, skips))
    (idle : state.offers = []) (through : state.lookups = []) :
    LooksUp
      { state with
        observer
        offers
        lookups := if skips then []
          else obs.signatures.map (Observer.matchEvent observer.slotState obs) }
      (events ++ [.observed obs skips]) := by
  obtain ⟨unmatched, skipped⟩ := countObserved_quiet cfg.observer state.observer obs
  rw [counted] at unmatched skipped
  have each := looks.each
  rw [through, List.map_nil, List.append_nil] at each
  refine ⟨?_, fun other member => ?_, ?_⟩
  · rw [lookedUp_append, entriesTaken_append, List.map_append, List.flatMap_append, each,
      show lookedUp [.observed obs skips] = [] from rfl, List.map_nil, List.append_nil]
    refine congrArg _ ?_
    cases skips with
    | true => rfl
    | false =>
      rw [if_neg Bool.false_ne_true, List.map_map]
      exact (List.map_id _).trans (List.append_nil _).symm
  · rcases List.mem_append.mp member with earlier | new
    · exact looks.skipped other earlier
    · obtain ⟨rfl, rfl⟩ := Event.observed.inj (List.mem_singleton.mp new)
      exact skipped rfl
  · have before := looks.found
    rw [observed, idle, List.append_nil] at before
    rw [observed, offered_append, matched_append, matched_append, before, lookedUp_append]
    change _ ++ [] ++ matched offers = ((lookedUp events ++ []).filter Prod.snd).map Prod.fst
    rw [unmatched, List.append_nil, List.append_nil, List.append_nil]

/-- The observer looks a signature up when it is through with what it found last. -/
theorem LooksUp.lookUp {state : State} {events : List Event} (looks : LooksUp state events)
    {ev : MatchEvent} {lookups : List MatchEvent} (idle : state.offers = [])
    (next : state.lookups = ev :: lookups) (found : Bool) :
    LooksUp { state with lookups, offers := if found then [.trySend (.matched ev)] else [] }
      (events ++ [.lookedUp ev found]) := by
  refine ⟨?_, fun obs member => ?_, ?_⟩
  · have each := looks.each
    rw [next] at each
    rw [lookedUp_append, entriesTaken_append, List.map_append, List.append_assoc]
    exact each.trans (congrArg (List.flatMap _) (List.append_nil _).symm)
  · rcases List.mem_append.mp member with earlier | new
    · exact looks.skipped obs earlier
    · cases List.mem_singleton.mp new
  · have before := looks.found
    rw [observed, idle, List.append_nil] at before
    rw [observed, offered_append, matched_append, matched_append, before, lookedUp_append,
      List.filter_append, List.map_append, List.append_assoc]
    cases found <;> rfl

theorem looksUp_step {state : State} {events : List Event} (looks : LooksUp state events)
    (cfg : Config) (input : Input) :
    LooksUp (step cfg state input).1 (events ++ (step cfg state input).2) := by
  have does := does_step cfg state input
  generalize step cfg state input = result at does ⊢
  cases does with
  | observe obs observer offers skips counted idle through =>
    exact looks.observe obs counted idle through
  | lookUp ev lookups idle next => exact looks.lookUp idle next _
  | offer effect offers accepted next =>
    obtain ⟨sendQueue, matchEvents, frame⟩ := accept_frame { state with offers } effect accepted
    rw [frame]
    refine looks.elsewhere rfl ?_ (by simp [Event.isElsewhere])
    rw [observed, offered_append, observed, next, List.append_assoc]
    rfl
  | respond index request result responseAt accepted found taker =>
    refine looks.elsewhere rfl (observed_idle rfl ?_) fun event member => ?_
    · rw [offered_append, offered_errorEvents]
      rfl
    · rcases List.mem_append.mp member with error | report
      · exact errorEvents_elsewhere result event error
      · cases List.mem_singleton.mp report
        rfl
  | answer statuses =>
    refine looks.elsewhere rfl (observed_idle rfl (offered_annotate _ _)) ?_
    exact fun event member => annotate_elsewhere _ _ event member
  | hangUp idle =>
    refine looks.elsewhere rfl (observed_idle rfl ?_) fun event member => ?_
    · refine List.filterMap_eq_nil_iff.mpr fun event member => ?_
      obtain ⟨ev, _, rfl⟩ := List.mem_map.mp member
      rfl
    · obtain ⟨ev, _, rfl⟩ := List.mem_map.mp member
      rfl
  | emit effect emissions accepted next =>
    obtain ⟨pendingSigs, fallbackQueue, frame⟩ := perform_frame { state with emissions } effect
    rw [frame]
    exact looks.elsewhere rfl (observed_idle rfl rfl) (by simp [Event.isElsewhere])
  | still | pool | expire | register | finalizeSend | finalizeMatch | giveUp | ask | fail =>
    exact looks.elsewhere rfl (observed_idle rfl rfl) (by simp [Event.isElsewhere])

/-- What the observer makes of the signatures of the entries. -/
structure Noticed (cfg : Config) (inputs : List Input) : Prop extends
    LooksUp (run cfg inputs).1 (run cfg inputs).2 where
  /-- A signature is found when its send was made and has no record yet. -/
  watched : ∀ past rest, inputs = past ++ .lookUp :: rest → ∀ ev found,
    (step cfg (run cfg past).1 .lookUp).2 = [.lookedUp ev found] →
      (found = true ↔ ev.signature ∈ watched (run cfg past).1 (run cfg past).2)

/-- The beginning of a run has no more commands than the run. -/
theorem distinct_of_append {cfg : Config} {past rest : List Input}
    (distinct : DistinctCommands (run cfg (past ++ rest)).1 (run cfg (past ++ rest)).2) :
    DistinctCommands (run cfg past).1 (run cfg past).2 := by
  induction rest using List.reverseRecOn with
  | nil => rwa [List.append_nil] at distinct
  | append_singleton rest last ih =>
    rw [← List.append_assoc] at distinct
    exact ih (distinct_past distinct)

/-- **The observer looks up every signature of the entries it takes, one after the other, and
finds exactly the sends that were made and have no record yet**, in every interleaving in
which no two commands share a signature. -/
theorem landings_noticed (cfg : Config) (inputs : List Input)
    (distinct : DistinctCommands (run cfg inputs).1 (run cfg inputs).2) : Noticed cfg inputs where
  toLooksUp := by
    refine runAll_induction (motive := LooksUp) (fun state events looks input _ => ?_) ?_
    · exact looksUp_step looks cfg input
    · exact ⟨rfl, fun _ absent => absurd absent List.not_mem_nil, rfl⟩
  watched := by
    rintro past rest rfl ev found looked
    have watches := watches_run cfg past (distinct_of_append distinct) ev.signature
    change (lookUp (run cfg past).1).2 = _ at looked
    unfold lookUp at looked
    split at looked
    · obtain ⟨rfl, rfl⟩ := Event.lookedUp.inj (List.singleton_inj.mp looked)
      rw [List.contains_eq_mem, decide_eq_true_iff, mem_watched]
      exact watches
    · cases looked

/-- An entry holds two signatures. The first one gets its record, and the second one is sent,
between the look-ups. -/
def betweenInputs : List Input :=
  [.insert 1000 1 ⟨[], sampleSignature 0, Hash.default, 0⟩,
      .insert 1000 2 ⟨[], sampleSignature 1, Hash.default, 0⟩, .observe (sampleObs 999 5 0 []),
      .observe (sampleObs 1000 62500 1 [])] ++
    List.replicate 4 (.offer true) ++
    [.dispatch 1 2, .observe (sampleObs 1000 62500 2 [])] ++ List.replicate 4 (.offer true) ++
    [.observe (sampleObs 1000 10 3 [sampleSignature 0, sampleSignature 1]), .lookUp, .offer true,
      .respond 0 (.ok "sent") 5 true, .finalizeSend 6, .finalizeMatch, .emit true, .emit true,
      .dispatch 7 8, .lookUp, .offer true]

/-- Both are found, although they are never pending at the same time. -/
theorem landings_noticed_between :
    Noticed sampleConfig betweenInputs ∧
      (lookedUp (run sampleConfig betweenInputs).2).map
          (fun look => (look.1.signature, look.2)) =
        [(sampleSignature 0, true), (sampleSignature 1, true)] ∧
      (run sampleConfig betweenInputs).1.pendingSigs = [sampleSignature 1] := by
  have ends : DistinctCommands (run sampleConfig betweenInputs).1
      (run sampleConfig betweenInputs).2 ∧
        (lookedUp (run sampleConfig betweenInputs).2).map
            (fun look => (look.1.signature, look.2)) =
          [(sampleSignature 0, true), (sampleSignature 1, true)] ∧
        (run sampleConfig betweenInputs).1.pendingSigs = [sampleSignature 1] := by
    decide +kernel
  exact ⟨landings_noticed sampleConfig betweenInputs ends.1, ends.2⟩

end SendFlow

end SenderAnalysis.TickTriggerBench

import SenderAnalysis.TickTriggerBench.SendAccounts

/-!
# The sends the RPC is asked about

The finalizer pushes the signature of a send that was not seen in time, and the fallback
thread asks the RPC about the signatures in batches. The signatures of the records with
unknown outcome are, in the order in which they were decided, those the RPC has answered or
failed on, the batch that is asked for, those in the queue, and those still to be pushed
(`fallback_accounted`). So every such send is asked about once, whatever the threads do in
between, and a failed batch is not asked for again.
-/

set_option autoImplicit false

namespace SenderAnalysis.TickTriggerBench

namespace Finalizer

/-- The signatures that effects push to the fallback queue. -/
def pushes (effects : List FinalizerEffect) : List Signature :=
  (sent effects).filterMap fun
    | .pushFallback sig => some sig
    | .final _ | .removePending _ => none

@[simp] theorem pushes_nil : pushes [] = [] := rfl

@[simp] theorem pushes_append (first second : List FinalizerEffect) :
    pushes (first ++ second) = pushes first ++ pushes second := by
  simp [pushes]

/-- The signatures of the records with unknown outcome. -/
def unknowns (effects : List FinalizerEffect) : List Signature :=
  ((records effects).filter fun record => record.status = .unknownPending).map
    fun record => record.send.signature

@[simp] theorem unknowns_append (first second : List FinalizerEffect) :
    unknowns (first ++ second) = unknowns first ++ unknowns second := by
  simp [unknowns]

/-- A pending send is found by its signature. -/
def Keyed (finalizer : State) : Prop :=
  ∀ sig p, finalizer.map.get sig = some p → p.send.signature = sig

/-- A record with unknown outcome and a push go together. -/
theorem pushes_emitFinal {sig : Signature} {p : PendingRecord} (own : p.send.signature = sig) :
    pushes (emitFinal sig p) = unknowns (emitFinal sig p) := by
  subst own
  unfold emitFinal
  dsimp only
  split <;> rfl

/-- A record of an observed send comes with no push. -/
theorem emitObserved_quiet (sig : Signature) (p : PendingRecord) :
    pushes (emitObserved sig p) = unknowns (emitObserved sig p) := rfl

/-- The signatures pushed are those of the records with unknown outcome, in order. -/
structure Pushed (finalizer : State) (effects : List FinalizerEffect) : Prop where
  keyed : Keyed finalizer
  pushed : pushes effects = unknowns effects

theorem Pushed.append {finalizer next : State} {effects more : List FinalizerEffect}
    (pushed : Pushed finalizer effects) (keyed : Keyed next)
    (together : pushes more = unknowns more) : Pushed next (effects ++ more) :=
  ⟨keyed, by rw [pushes_append, unknowns_append, pushed.pushed, together]⟩

theorem Keyed.remove {finalizer : State} (keyed : Keyed finalizer) (sig : Signature)
    (earlyMatches : HashTable Signature MatchEvent) :
    Keyed ⟨finalizer.map.remove sig, earlyMatches⟩ := fun other p found =>
  keyed other p (HashTable.get_of_get_remove found)

theorem Pushed.handleSend {finalizer : State} {effects : List FinalizerEffect}
    (pushed : Pushed finalizer effects) (ev : SendEvent) (now : Instant) :
    Pushed (Finalizer.handleSend finalizer ev now).1
      (effects ++ (Finalizer.handleSend finalizer ev now).2) := by
  unfold Finalizer.handleSend
  dsimp only
  split
  · exact pushed.append (pushed.keyed.remove _ _) (emitObserved_quiet _ _)
  · refine pushed.append ?_ rfl
    have own : ((finalizer.map.get ev.signature).getD
        ⟨ev, finalizer.earlyMatches.get ev.signature, now⟩).send.signature = ev.signature := by
      cases present : finalizer.map.get ev.signature with
      | none => rfl
      | some p => exact pushed.keyed _ _ present
    exact keyed_insert pushed.keyed own

theorem Pushed.handleMatch {finalizer : State} {effects : List FinalizerEffect}
    (pushed : Pushed finalizer effects) (ev : MatchEvent) :
    Pushed (Finalizer.handleMatch finalizer ev).1
      (effects ++ (Finalizer.handleMatch finalizer ev).2) := by
  unfold Finalizer.handleMatch
  dsimp only
  split
  · exact pushed.append (pushed.keyed.remove _ _) (emitObserved_quiet _ _)
  · exact pushed.append pushed.keyed rfl

theorem Pushed.giveUp {finalizer : State} {effects : List FinalizerEffect}
    (pushed : Pushed finalizer effects) (sig : Signature) :
    Pushed (Finalizer.giveUp finalizer sig).1 (effects ++ (Finalizer.giveUp finalizer sig).2) := by
  unfold Finalizer.giveUp
  split
  · exact pushed.append pushed.keyed rfl
  · next p found =>
    exact pushed.append (pushed.keyed.remove _ _) (pushes_emitFinal (pushed.keyed _ _ found))

theorem Pushed.giveUpAll {finalizer : State} {effects : List FinalizerEffect}
    (pushed : Pushed finalizer effects) (sigs : List Signature) :
    Pushed (runAll Finalizer.giveUp finalizer sigs).1
      (effects ++ (runAll Finalizer.giveUp finalizer sigs).2) := by
  induction sigs generalizing finalizer effects with
  | nil => exact pushed.append pushed.keyed rfl
  | cons sig rest ih =>
    have later := ih (pushed.giveUp sig)
    rwa [List.append_assoc] at later

end Finalizer

namespace SendFlow

open Finalizer (pushes unknowns Pushed)

/-- Whatever is taken, given up or matched, a push goes with its record. -/
theorem pushed_run (cfg : Config) (inputs : List Input) :
    Pushed (run cfg inputs).1.finalizer (decided (run cfg inputs).1 (run cfg inputs).2) :=
  finalizer_induction (motive := fun _ finalizer effects => Pushed finalizer effects)
    ⟨fun _ _ absent => by simp at absent, rfl⟩
    (fun _ _ _ pushed ev now => pushed.handleSend ev now)
    (fun _ _ _ pushed ev => pushed.handleMatch ev)
    (fun _ _ _ pushed sigs => pushed.giveUpAll sigs) cfg inputs

/-! ## The fallback thread -/

/-- The signatures an event is the end of: it annotates them, or they get no answer. -/
def Event.settles : Event → List Signature
  | .annotated sig _ | .unanswered sig => [sig]
  | .rpcFallbackError batch => batch
  | _ => []

/-- The signatures the fallback thread is through with. -/
def settled (events : List Event) : List Signature := events.flatMap Event.settles

@[simp] theorem settled_append (first second : List Event) :
    settled (first ++ second) = settled first ++ settled second := List.flatMap_append

/-- Every signature of a batch is settled by its answer. -/
theorem settled_annotate (batch : List Signature) (statuses : List (Option TransactionStatus)) :
    settled (annotate batch statuses) = batch := by
  induction batch, statuses using annotate.induct with
  | case1 sig batch status statuses ih =>
    change sig :: settled (annotate batch statuses) = _
    rw [ih]
  | case2 batch =>
    have none : annotate batch [] = batch.map .unanswered := by cases batch <;> rfl
    rw [none, settled, List.flatMap_map]
    exact List.flatMap_singleton' batch
  | case3 => simp [annotate, settled]

/-- What the finalizer has pushed is settled, asked for, or waits. -/
theorem pushes_emitted (cfg : Config) (inputs : List Input) :
    pushes (emitted (run cfg inputs).2) =
      settled (run cfg inputs).2 ++ (run cfg inputs).1.batch ++
        (run cfg inputs).1.fallbackQueue := by
  refine runAll_induction (motive := fun (state : State) events =>
    pushes (emitted events) = settled events ++ state.batch ++ state.fallbackQueue) ?_ rfl
  intro state events before input _
  have does := does_step cfg state input
  generalize step cfg state input = result at does ⊢
  rw [emitted_append, Finalizer.pushes_append, settled_append, before]
  cases does with
  | still | observe | lookUp | pool | expire | register | finalizeSend | finalizeMatch | giveUp =>
    simp [emitted, settled, Event.settles]
  | hangUp idle =>
    have quiet : settled (state.sendEvents.map .abandoned) = [] := by
      rw [settled, List.flatMap_map]
      exact List.flatMap_eq_nil_iff.mpr fun _ _ => rfl
    rw [(abandoned_quiet state.sendEvents).2, quiet]
    simp
  | offer effect offers accepted next =>
    obtain ⟨sendQueue, matchEvents, frame⟩ := accept_frame { state with offers } effect accepted
    simp [frame, emitted, settled, Event.settles]
  | respond index request result responseAt accepted found taker =>
    have quiet : settled (errorEvents result) = [] := by
      unfold errorEvents
      split <;> rfl
    simp only [emitted_append, settled_append, (errorEvents_quiet result).2, quiet]
    simp [emitted, settled, Event.settles]
  | emit effect emissions accepted next =>
    cases effect with
    | trySend output =>
      cases output with
      | pushFallback sig => simp [perform, emitted, settled, Event.settles, pushes]
      | removePending sig | final record =>
        simp [perform, emitted, settled, Event.settles, pushes]
    | fetchAdd | fetchMin | fetchMax =>
      simp [perform, emitted, settled, Event.settles, pushes]
  | ask idle => simp [idle, emitted, settled]
  | answer statuses =>
    rw [(annotate_quiet state.batch statuses).2, settled_annotate]
    simp
  | fail => simp [emitted, settled, Event.settles]

/-- **The sends recorded with unknown outcome are, in order, those the RPC was asked about,
the batch it is asked about now, and those waiting to be asked about.** -/
theorem fallback_accounted (cfg : Config) (inputs : List Input) :
    unknowns (decided (run cfg inputs).1 (run cfg inputs).2) =
      settled (run cfg inputs).2 ++ (run cfg inputs).1.batch ++
        (run cfg inputs).1.fallbackQueue ++ pushes (run cfg inputs).1.emissions := by
  rw [← (pushed_run cfg inputs).pushed, decided, Finalizer.pushes_append, pushes_emitted]

end SendFlow

end SenderAnalysis.TickTriggerBench

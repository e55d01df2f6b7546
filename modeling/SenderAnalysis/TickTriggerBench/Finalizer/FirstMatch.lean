import SenderAnalysis.TickTriggerBench.Finalizer.Conservation

/-!
# Which match a final record carries

A match that comes before its send waits for it, and a later one takes its place. So the
record of a send carries the last of the matches before the send, and when there is none,
the first of those after it. With one send and matches in time, the record carries the
first match of all exactly when the last match before the send says the same as the first
(`first_match_iff`).
-/

set_option autoImplicit false

namespace SenderAnalysis.TickTriggerBench.Finalizer

open SelectLoop (Act)

variable {deadline : Duration} {finalizer : State} {sig : Signature}

/-! ## The finalizer, seen from one signature -/

/-- What the finalizer holds for a signature. -/
structure SigView where
  pending : Option PendingRecord := none
  early : Option MatchEvent := none

/-- The record of a pending send that is given up. -/
def givenUp (p : PendingRecord) : FinalRecord :=
  ⟨p.send, p.matchEvent, if p.matchEvent.isSome then .observed else .unknownPending⟩

/-- Give up the pending send, if it passes a test. -/
def SigView.giveUpIf (view : SigView) (test : PendingRecord → Bool) : SigView × List FinalRecord :=
  match view.pending with
  | none => (view, [])
  | some p => if test p then ({ view with pending := none }, [givenUp p]) else (view, [])

def SigView.step (deadline : Duration) (sig : Signature) (view : SigView) :
    Taken Event Instant → SigView × List FinalRecord
  | .event (.send ev) now =>
      if ev.signature = sig then
        let p := view.pending.getD ⟨ev, view.early, now⟩
        if view.early.isSome then ({}, [⟨p.send, p.matchEvent, .observed⟩])
        else ({ pending := some p }, [])
      else (view, [])
  | .event (.matched ev) _ =>
      if ev.signature = sig then
        match view.pending with
        | some p => ({ view with pending := none }, [⟨p.send, some ev, .observed⟩])
        | none => ({ view with early := some ev }, [])
      else (view, [])
  | .sweep now => view.giveUpIf fun p => deadline < saturatingDurationSince now p.insertedAt

theorem step_send_other {view : SigView} {ev : SendEvent} {now : Instant}
    (other : ev.signature ≠ sig) : view.step deadline sig (.event (.send ev) now) = (view, []) :=
  if_neg other

theorem step_matched_other {view : SigView} {ev : MatchEvent} {now : Instant}
    (other : ev.signature ≠ sig) :
    view.step deadline sig (.event (.matched ev) now) = (view, []) :=
  if_neg other

/-- A match without a pending send takes the place of an earlier one. -/
theorem step_matched_idle {early : Option MatchEvent} {ev : MatchEvent} {now : Instant}
    (own : ev.signature = sig) :
    SigView.step deadline sig { pending := none, early := early } (.event (.matched ev) now) =
      ({ pending := none, early := some ev }, []) :=
  if_pos own

theorem step_matched_pending {p : PendingRecord} {early : Option MatchEvent} {ev : MatchEvent}
    {now : Instant} (own : ev.signature = sig) :
    SigView.step deadline sig { pending := some p, early := early } (.event (.matched ev) now) =
      ({ pending := none, early := early }, [⟨p.send, some ev, .observed⟩]) :=
  if_pos own

theorem step_send_early {early : MatchEvent} {ev : SendEvent} {now : Instant}
    (own : ev.signature = sig) :
    SigView.step deadline sig { early := some early } (.event (.send ev) now) =
      ({}, [⟨ev, some early, .observed⟩]) :=
  if_pos own

theorem step_send_fresh {ev : SendEvent} {now : Instant} (own : ev.signature = sig) :
    SigView.step deadline sig {} (.event (.send ev) now) =
      ({ pending := some ⟨ev, none, now⟩ }, []) :=
  if_pos own

/-- The final record of a signature that an effect offers, if any. -/
def recordAbout (sig : Signature) (effect : FinalizerEffect) : Option FinalRecord :=
  (effect.message?.bind Output.final?).filter fun record => record.send.signature = sig

theorem records_filter (effects : List FinalizerEffect) (sig : Signature) :
    (records effects).filter (fun record => record.send.signature = sig) =
      effects.filterMap (recordAbout sig) := by
  unfold records sent
  rw [List.filterMap_filterMap, List.filter_filterMap]
  rfl

@[simp] theorem recordAbout_final (sig : Signature) (record : FinalRecord) :
    recordAbout sig (.trySend (.final record)) =
      if record.send.signature = sig then some record else none := by
  simp [recordAbout, Output.final?, Option.filter]

@[simp] theorem recordAbout_removePending (sig own : Signature) :
    recordAbout sig (.trySend (.removePending own)) = none := rfl

@[simp] theorem recordAbout_pushFallback (sig own : Signature) :
    recordAbout sig (.trySend (.pushFallback own)) = none := rfl

theorem emitObserved_about (own : Signature) (p : PendingRecord) (sig : Signature) :
    (emitObserved own p).filterMap (recordAbout sig) =
      if p.send.signature = sig then [⟨p.send, p.matchEvent, .observed⟩] else [] := by
  by_cases same : p.send.signature = sig <;>
    simp [emitObserved, List.filterMap_cons, same]

theorem emitFinal_about (own : Signature) (p : PendingRecord) (sig : Signature) :
    (emitFinal own p).filterMap (recordAbout sig) =
      if p.send.signature = sig then [givenUp p] else [] := by
  unfold givenUp
  by_cases same : p.send.signature = sig <;> cases found : p.matchEvent <;>
    simp [emitFinal, List.filterMap_cons, same, found]

/-- The finalizer holds the view of a signature; a pending send is found by its
signature. -/
structure Views (finalizer : State) (sig : Signature) (view : SigView) : Prop where
  pending : finalizer.map.get sig = view.pending
  early : finalizer.earlyMatches.get sig = view.early
  keyed : ∀ sig p, finalizer.map.get sig = some p → p.send.signature = sig

variable {view : SigView}

theorem handleSend_view (views : Views finalizer sig view) (ev : SendEvent) (now : Instant) :
    Views (handleSend finalizer ev now).1 sig (view.step deadline sig (.event (.send ev) now)).1 ∧
      (handleSend finalizer ev now).2.filterMap (recordAbout sig) =
        (view.step deadline sig (.event (.send ev) now)).2 := by
  obtain ⟨pending, early, keyed⟩ := views
  have own : ((finalizer.map.get ev.signature).getD
      ⟨ev, finalizer.earlyMatches.get ev.signature, now⟩).send.signature = ev.signature := by
    cases found : finalizer.map.get ev.signature with
    | none => rfl
    | some p => exact keyed _ p found
  have removed : ∀ other p, (finalizer.map.remove ev.signature).get other = some p →
      p.send.signature = other := by
    intro other p found
    exact keyed other p (HashTable.get_of_get_remove found)
  unfold handleSend SigView.step
  dsimp only
  by_cases mine : ev.signature = sig
  · subst mine
    rw [pending, early] at own ⊢
    rw [if_pos rfl]
    split
    · refine ⟨⟨HashTable.get_remove_self .., HashTable.get_remove_self .., removed⟩, ?_⟩
      rw [emitObserved_about, if_pos own]
    · exact ⟨⟨HashTable.get_insert_self .., HashTable.get_remove_self ..,
        keyed_insert keyed own⟩, rfl⟩
  · have apart : sig ≠ ev.signature := fun same => mine same.symm
    rw [if_neg mine]
    split
    · refine ⟨⟨?_, ?_, removed⟩, ?_⟩
      · rw [HashTable.get_remove_of_ne _ apart, pending]
      · rw [HashTable.get_remove_of_ne _ apart, early]
      · rw [emitObserved_about, own, if_neg mine]
    · refine ⟨⟨?_, ?_, keyed_insert keyed own⟩, rfl⟩
      · rw [HashTable.get_insert_of_ne _ _ apart, pending]
      · rw [HashTable.get_remove_of_ne _ apart, early]

theorem handleMatch_view (views : Views finalizer sig view) (ev : MatchEvent) (now : Instant) :
    Views (handleMatch finalizer ev).1 sig
        (view.step deadline sig (.event (.matched ev) now)).1 ∧
      (handleMatch finalizer ev).2.filterMap (recordAbout sig) =
        (view.step deadline sig (.event (.matched ev) now)).2 := by
  obtain ⟨pending, early, keyed⟩ := views
  unfold handleMatch SigView.step
  dsimp only
  by_cases mine : ev.signature = sig
  · subst mine
    rw [pending, if_pos rfl]
    cases waits : view.pending with
    | none => exact ⟨⟨pending.trans waits, HashTable.get_insert_self .., keyed⟩, rfl⟩
    | some p =>
      rw [waits] at pending
      refine ⟨⟨HashTable.get_remove_self .., early, ?_⟩, ?_⟩
      · intro other q found
        exact keyed other q (HashTable.get_of_get_remove found)
      · rw [emitObserved_about, if_pos (keyed _ p pending)]
  · have apart : sig ≠ ev.signature := fun same => mine same.symm
    rw [if_neg mine]
    split
    · next p waits =>
      refine ⟨⟨?_, early, ?_⟩, ?_⟩
      · rw [HashTable.get_remove_of_ne _ apart, pending]
      · intro other q found
        exact keyed other q (HashTable.get_of_get_remove found)
      · rw [emitObserved_about, keyed _ p waits, if_neg mine]
    · exact ⟨⟨pending, by rw [HashTable.get_insert_of_ne _ _ apart, early], keyed⟩, rfl⟩

theorem giveUpAll_view (views : Views finalizer sig view) {sigs : List Signature}
    (distinct : sigs.Nodup) (test : PendingRecord → Bool)
    (tested : ∀ p, view.pending = some p → (sig ∈ sigs ↔ test p = true)) :
    Views (runAll giveUp finalizer sigs).1 sig (view.giveUpIf test).1 ∧
      (runAll giveUp finalizer sigs).2.filterMap (recordAbout sig) = (view.giveUpIf test).2 := by
  obtain ⟨pending, early, keyed⟩ := views
  have foreign : ∀ other p, other ≠ sig → finalizer.map.get other = some p →
      (emitFinal other p).filterMap (recordAbout sig) = [] := by
    intro other p apart found
    rw [emitFinal_about, keyed other p found, if_neg apart]
  have left := HashTable.runAll_takeOut_get emitFinal sigs finalizer.map
  have given := HashTable.runAll_takeOut_filterMap emitFinal (recordAbout sig) distinct
    finalizer.map sig foreign
  have keyed' : ∀ other p, (runAll (HashTable.takeOut emitFinal) finalizer.map sigs).1.get other =
      some p → p.send.signature = other := by
    intro other p found
    rw [left] at found
    split at found
    · cases found
    · exact keyed other p found
  rw [giveUpAll_eq]
  unfold SigView.giveUpIf
  rw [pending] at given
  cases waits : view.pending with
  | none =>
    rw [waits] at pending given
    refine ⟨⟨?_, early, keyed'⟩, ?_⟩
    · rw [left, pending, ite_self, waits]
    · simpa using given
  | some p =>
    rw [waits] at pending given
    by_cases stale' : test p = true
    · have among := (tested p waits).mpr stale'
      rw [if_pos among] at given
      dsimp only
      rw [if_pos stale']
      refine ⟨⟨?_, early, keyed'⟩, given.trans ?_⟩
      · rw [left, if_pos among]
      · rw [Option.map_some, Option.getD_some, emitFinal_about, if_pos (keyed sig p pending)]
    · have spared : sig ∉ sigs := fun among => stale' ((tested p waits).mp among)
      rw [if_neg spared] at given
      dsimp only
      rw [if_neg stale']
      exact ⟨⟨by rw [left, if_neg spared, pending, waits], early, keyed'⟩, given⟩

theorem nodup_stale (deadline : Duration) (finalizer : State) (now : Instant) :
    (stale deadline finalizer now).Nodup :=
  List.Nodup.sublist (List.filter_sublist.map _) finalizer.map.nodupKeys

theorem mem_stale {now : Instant} :
    sig ∈ stale deadline finalizer now ↔ ∃ p, finalizer.map.get sig = some p ∧
      deadline < saturatingDurationSince now p.insertedAt := by
  simp only [stale, List.mem_map, List.mem_filter, decide_eq_true_eq]
  constructor
  · rintro ⟨⟨_, p⟩, ⟨member, waited⟩, rfl⟩
    exact ⟨p, HashTable.mem_entries.mp member, waited⟩
  · rintro ⟨p, found, waited⟩
    exact ⟨⟨sig, p⟩, ⟨HashTable.mem_entries.mpr found, waited⟩, rfl⟩

theorem step_view (views : Views finalizer sig view) (taken : Taken Event Instant) :
    Views (step deadline finalizer taken).1 sig (view.step deadline sig taken).1 ∧
      (step deadline finalizer taken).2.filterMap (recordAbout sig) =
        (view.step deadline sig taken).2 := by
  cases taken with
  | event event now =>
    cases event with
    | send ev => exact handleSend_view views ev now
    | matched ev => exact handleMatch_view views ev now
  | sweep now =>
    refine giveUpAll_view views (nodup_stale deadline finalizer now) _ fun p waits => ?_
    rw [mem_stale, views.pending, waits]
    simp

theorem run_view (views : Views finalizer sig view) (taken : List (Taken Event Instant)) :
    Views (runAll (step deadline) finalizer taken).1 sig
        (runAll (SigView.step deadline sig) view taken).1 ∧
      (runAll (step deadline) finalizer taken).2.filterMap (recordAbout sig) =
        (runAll (SigView.step deadline sig) view taken).2 := by
  induction taken generalizing finalizer view with
  | nil => exact ⟨views, rfl⟩
  | cons first rest ih =>
    obtain ⟨next, records⟩ := @step_view deadline _ _ _ views first
    obtain ⟨last, more⟩ := ih next
    rw [runAll_cons, runAll_cons, List.filterMap_append, records, more]
    exact ⟨last, rfl⟩

/-- **The final records of a signature are those of its view, with what is pending in the
end given up.** -/
theorem recordsOf_view (deadline : Duration) (acts : List (Act Channel Event Instant))
    (sig : Signature) :
    recordsOf deadline acts sig =
      (runAll (SigView.step deadline sig) {} ((finalizeLoop deadline).run acts).2).2 ++
        ((runAll (SigView.step deadline sig) {} ((finalizeLoop deadline).run acts).2).1.giveUpIf
          fun _ => true).2 := by
  have start : Views {} sig {} :=
    ⟨HashTable.get_empty sig, HashTable.get_empty sig, fun _ p found => by simp at found⟩
  obtain ⟨views, early⟩ := @run_view deadline _ _ _ start
    ((finalizeLoop deadline).run acts).2
  have distinct := (runAll (step deadline) {} ((finalizeLoop deadline).run acts).2).1.map.nodupKeys
  obtain ⟨_, late⟩ := giveUpAll_view views distinct (fun _ => true) (by
    intro p waits
    simp only [iff_true]
    rw [← views.pending] at waits
    exact List.mem_map.mpr ⟨⟨sig, p⟩, HashTable.mem_entries.mpr waits, rfl⟩)
  rw [recordsOf, records_filter, effectsOf, List.filterMap_append, early, ← late]
  rfl

/-! ## One send and its matches -/

def Event.match? : Event → Option MatchEvent
  | send _ => none
  | matched ev => some ev

/-- The matches of a signature, in the order they are handled. -/
def matchesOf (sig : Signature) (taken : List (Taken Event Instant)) : List MatchEvent :=
  ((Taken.events taken).filterMap Event.match?).filter fun ev => ev.signature = sig

/-- No send of the signature is handled. -/
def NotSent (sig : Signature) (taken : List (Taken Event Instant)) : Prop :=
  ∀ ev ∈ sendsOf (Taken.events taken), ev.signature ≠ sig

instance (sig : Signature) (taken : List (Taken Event Instant)) : Decidable (NotSent sig taken) :=
  inferInstanceAs (Decidable (∀ _ ∈ _, _))

/-- No sweep gives up a send that is opened at an instant, before its first match. -/
def InTime (deadline : Duration) (sig : Signature) (openedAt : Instant)
    (taken : List (Taken Event Instant)) : Prop :=
  ∀ past now rest, taken = past ++ .sweep now :: rest → matchesOf sig past = [] →
    matchesOf sig rest ≠ [] → saturatingDurationSince now openedAt ≤ deadline

theorem matchesOf_append (sig : Signature) (first second : List (Taken Event Instant)) :
    matchesOf sig (first ++ second) = matchesOf sig first ++ matchesOf sig second := by
  simp [matchesOf]

theorem matchesOf_cons_matched (ev : MatchEvent) (now : Instant)
    (rest : List (Taken Event Instant)) :
    matchesOf sig (.event (.matched ev) now :: rest) =
      if ev.signature = sig then ev :: matchesOf sig rest else matchesOf sig rest := by
  simp only [matchesOf, Taken.events_event, List.filterMap_cons, Event.match?, List.filter_cons,
    decide_eq_true_eq]

theorem matchesOf_cons_send (ev : SendEvent) (now : Instant) (rest : List (Taken Event Instant)) :
    matchesOf sig (.event (.send ev) now :: rest) = matchesOf sig rest := rfl

theorem matchesOf_cons_sweep (now : Instant) (rest : List (Taken Event Instant)) :
    matchesOf sig (.sweep now :: rest) = matchesOf sig rest := rfl

theorem NotSent.tail {first : Taken Event Instant} {rest : List (Taken Event Instant)}
    (notSent : NotSent sig (first :: rest)) : NotSent sig rest := by
  have split : first :: rest = [first] ++ rest := rfl
  rw [split] at notSent
  intro ev member
  rw [NotSent, Taken.events_append, sendsOf_append] at notSent
  exact notSent ev (List.mem_append_right _ member)

theorem NotSent.head {ev : SendEvent} {now : Instant} {rest : List (Taken Event Instant)}
    (notSent : NotSent sig (.event (.send ev) now :: rest)) : ev.signature ≠ sig :=
  notSent ev (List.mem_cons_self ..)

/-- Without a pending send, matches are kept, the last in place of those before it. -/
theorem run_idle {taken : List (Taken Event Instant)} (notSent : NotSent sig taken)
    (early : Option MatchEvent) :
    runAll (SigView.step deadline sig) { pending := none, early := early } taken =
      ({ pending := none, early := (matchesOf sig taken).getLast?.or early }, []) := by
  induction taken generalizing early with
  | nil => rfl
  | cons first rest ih =>
    rw [runAll_cons]
    cases first with
    | event event now =>
      cases event with
      | send ev =>
        rw [step_send_other notSent.head, ih notSent.tail, matchesOf_cons_send]
        rfl
      | matched ev =>
        rw [matchesOf_cons_matched]
        split
        · next own =>
          rw [step_matched_idle own, ih notSent.tail, List.getLast?_cons]
          cases (matchesOf sig rest).getLast? <;> rfl
        · next other =>
          rw [step_matched_other other, ih notSent.tail]
          rfl
    | sweep now =>
      have idle : SigView.step deadline sig { pending := none, early := early } (.sweep now) =
          ({ pending := none, early := early }, []) := rfl
      rw [idle, ih notSent.tail, matchesOf_cons_sweep]
      rfl

/-- A pending send whose first match comes in time is recorded with it, and nothing is
pending then. -/
theorem run_waiting {taken : List (Taken Event Instant)} (notSent : NotSent sig taken)
    {ev : SendEvent} {openedAt : Instant} {first : MatchEvent} {rest : List MatchEvent}
    (matched : matchesOf sig taken = first :: rest) (inTime : InTime deadline sig openedAt taken) :
    (runAll (SigView.step deadline sig) { pending := some ⟨ev, none, openedAt⟩ } taken).1.pending =
        none ∧
      (runAll (SigView.step deadline sig) { pending := some ⟨ev, none, openedAt⟩ } taken).2 =
        [⟨ev, some first, .observed⟩] := by
  induction taken with
  | nil => cases matched
  | cons head tail ih =>
    have later : ∀ past now rest, tail = past ++ .sweep now :: rest →
        matchesOf sig (head :: past) = [] → matchesOf sig rest ≠ [] →
        saturatingDurationSince now openedAt ≤ deadline :=
      fun past now rest split none' some' =>
        inTime (head :: past) now rest (by rw [split]; rfl) none' some'
    rw [runAll_cons]
    cases head with
    | event event now =>
      cases event with
      | send other =>
        rw [step_send_other notSent.head]
        exact ih notSent.tail matched later
      | matched other =>
        rw [matchesOf_cons_matched] at matched
        split at matched
        · next mine =>
          obtain ⟨rfl, -⟩ := List.cons.inj matched
          rw [step_matched_pending mine, run_idle notSent.tail]
          exact ⟨rfl, rfl⟩
        · next theirs =>
          rw [step_matched_other theirs]
          refine ih notSent.tail matched fun past now' rest split none' some' => ?_
          exact later past now' rest split
            (by rw [matchesOf_cons_matched, if_neg theirs, none']) some'
    | sweep now =>
      have early := inTime [] now tail rfl rfl (by
        rw [matchesOf_cons_sweep] at matched
        simp [matched])
      have kept : SigView.step deadline sig { pending := some ⟨ev, none, openedAt⟩ } (.sweep now) =
          ({ pending := some ⟨ev, none, openedAt⟩ }, []) :=
        if_neg (by simpa using early)
      rw [kept]
      exact ih notSent.tail matched later

/-- One send among the matches of its signature has one record: with the last match before
it, or else with the first match after it. -/
theorem recordsOf_send {acts : List (Act Channel Event Instant)}
    {before after : List (Taken Event Instant)} {ev : SendEvent} {now : Instant}
    (took : ((finalizeLoop deadline).run acts).2 = before ++ .event (.send ev) now :: after)
    (once : NotSent ev.signature before ∧ NotSent ev.signature after)
    (matched : matchesOf ev.signature (before ++ after) ≠ [])
    (inTime : InTime deadline ev.signature now after) :
    recordsOf deadline acts ev.signature =
      [⟨ev, (matchesOf ev.signature before).getLast?.or (matchesOf ev.signature after).head?,
        .observed⟩] := by
  rw [recordsOf_view, took, runAll_append, run_idle once.1, runAll_cons, Option.or_none]
  cases early : (matchesOf ev.signature before).getLast? with
  | some last =>
    rw [step_send_early rfl, run_idle once.2]
    rfl
  | none =>
    rw [matchesOf_append, List.getLast?_eq_none_iff.mp early, List.nil_append] at matched
    obtain ⟨first, rest, found⟩ := List.exists_cons_of_ne_nil matched
    obtain ⟨done, recorded⟩ :=
      @run_waiting deadline ev.signature after once.2 ev now _ _ found inTime
    rw [step_send_fresh rfl, found]
    dsimp only
    rw [recorded]
    unfold SigView.giveUpIf
    rw [done]
    rfl

/-- **With one send and matches in time, the one record of a signature is observed and
carries the first of its matches, if and only if the last match before the send, if any,
says the same as the first.** -/
theorem first_match_iff {acts : List (Act Channel Event Instant)}
    {before after : List (Taken Event Instant)} {ev : SendEvent} {now : Instant}
    (took : ((finalizeLoop deadline).run acts).2 = before ++ .event (.send ev) now :: after)
    (once : NotSent ev.signature before ∧ NotSent ev.signature after)
    (matched : matchesOf ev.signature (before ++ after) ≠ [])
    (inTime : InTime deadline ev.signature now after) :
    recordsOf deadline acts ev.signature =
        [⟨ev, (matchesOf ev.signature (before ++ after)).head?, .observed⟩] ↔
      (matchesOf ev.signature before).getLast? = (matchesOf ev.signature before).head? := by
  rw [recordsOf_send took once matched inTime, matchesOf_append, List.head?_append]
  cases early : matchesOf ev.signature before with
  | nil => simp
  | cons first rest => simp [List.getLast?_cons]

theorem inTime_nil (deadline : Duration) (sig : Signature) (openedAt : Instant) :
    InTime deadline sig openedAt [] := by
  intro past now rest split
  simp at split

/-- A match of the sample send. -/
def sampleMatch (observedAt : Instant) : MatchEvent where
  signature := sampleSend.signature
  observedAt := observedAt
  observedSlot := 101
  observedEntryIndex := 3
  observedTickInSlot := some 2
  observedCumulativeHashesInSlot := some 130000

/-- Two matches come before the send: the record carries the second. -/
theorem first_match_violated :
    ¬ ∀ (deadline : Duration) (acts : List (Act Channel Event Instant))
        (before after : List (Taken Event Instant)) (ev : SendEvent) (now : Instant),
      ((finalizeLoop deadline).run acts).2 = before ++ .event (.send ev) now :: after →
      NotSent ev.signature before ∧ NotSent ev.signature after →
      matchesOf ev.signature (before ++ after) ≠ [] →
      InTime deadline ev.signature now after →
      recordsOf deadline acts ev.signature =
        [⟨ev, (matchesOf ev.signature (before ++ after)).head?, .observed⟩] := by
  intro law
  have carried := law 1000
    [.enqueue (.matched (sampleMatch 5)), .enqueue (.matched (sampleMatch 9)),
      .enqueue (.send sampleSend), .check, .receive .matched 10, .pass, .check,
      .receive .matched 11, .pass, .check, .receive .send 12, .pass]
    [.event (.matched (sampleMatch 5)) 10, .event (.matched (sampleMatch 9)) 11] [] sampleSend 12
    (by decide +kernel) (by decide +kernel) (by decide +kernel) (inTime_nil _ _ _)
  exact absurd carried (by decide +kernel)

/-- A match, its repeat and the send, and then another match: the record carries the first. -/
theorem first_match_iff_after :
    recordsOf 1000
        [.enqueue (.matched (sampleMatch 5)), .enqueue (.matched (sampleMatch 5)),
          .enqueue (.send sampleSend), .enqueue (.matched (sampleMatch 9)), .check,
          .receive .matched 6, .pass, .check, .receive .matched 7, .pass, .check, .receive .send 8,
          .pass, .check, .receive .matched 10, .pass] sampleSend.signature =
      [⟨sampleSend, some (sampleMatch 5), .observed⟩] :=
  (@first_match_iff 1000 _
    [.event (.matched (sampleMatch 5)) 6, .event (.matched (sampleMatch 5)) 7]
    [.event (.matched (sampleMatch 9)) 10] sampleSend 8 (by decide +kernel) (by decide +kernel)
    (by decide +kernel) (by
      intro past now rest split
      rcases past with _ | ⟨first, _ | ⟨second, past⟩⟩ <;> simp at split)).mpr rfl

end SenderAnalysis.TickTriggerBench.Finalizer

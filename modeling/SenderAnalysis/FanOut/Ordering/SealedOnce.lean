import SenderAnalysis.FanOut.Ordering.SlotViews
import SenderAnalysis.FanOut.Samples
import SenderAnalysis.Foundations.Traces

/-!
# How often a slot is reported

When a slot is sealed its progress is forgotten. An entry of the slot that arrives
later finds no progress, starts a new one and, because the highest slot is far
ahead, is reported at once. So a slot has one report, and one more for every entry
that arrives after the slot was observed and sealed (`length_batches`). The comment
on sealing says that late entries count against the frozen maximum instead.
-/

set_option autoImplicit false

namespace SenderAnalysis.OrderingTracker

/-! ## Late arrivals -/

/-- The highest slot observed. -/
def highest (observations : List EntryObservation) : Nat :=
  (observations.map EntryObservation.slot).foldl max 0

/-- The entry arrives after its slot was observed and sealed. -/
def Late (sealLag : Nat) (past : List EntryObservation) (obs : EntryObservation) : Prop :=
  obs.slot ∈ past.map EntryObservation.slot ∧ SealedAt sealLag (highest past) obs.slot

instance (sealLag : Nat) (past : List EntryObservation) (obs : EntryObservation) :
    Decidable (Late sealLag past obs) :=
  inferInstanceAs (Decidable (_ ∧ _))

/-- How many entries of a slot arrive late. -/
def lateArrivals (sealLag slot : Nat) (observations : List EntryObservation) : Nat :=
  countAfter (fun past obs => obs.slot = slot ∧ Late sealLag past obs) observations

/-- Every observed slot has one report, and the counter of sealed slots is the number of
slots observed. -/
def ReportsOnce (sealLag : Nat) (observations : List EntryObservation) : Prop :=
  (∀ slot ∈ observations.map EntryObservation.slot,
    ((finish sealLag observations).sealedReports.filter
      (fun report => report.slot = slot)).length = 1) ∧
  (finish sealLag observations).counters.slotsSealed =
    (observations.map EntryObservation.slot).toFinset.card

/-! ## The number of batches -/

theorem highest_concat (past : List EntryObservation) (obs : EntryObservation) :
    highest (past ++ [obs]) = max (highest past) obs.slot := by
  rw [highest, List.map_append, List.map_singleton, List.foldl_concat]
  rfl

variable (sealLag slot : Nat)

theorem viewAll_highWater (observations : List EntryObservation) :
    (viewAll sealLag slot observations).1.highWater = highest observations := by
  induction observations using List.reverseRecOn with
  | nil => rfl
  | append_singleton past obs ih =>
    rw [viewAll_concat, highest_concat, ← ih]
    simp only [SlotView.step]
    split <;> rfl

/-- A slot that is sealed has no open arrivals, and one that is not has some as soon as
it was observed. -/
theorem viewAll_arrivals (observations : List EntryObservation) :
    (viewAll sealLag slot observations).1.arrivals = [] ↔
      SealedAt sealLag (highest observations) slot ∨
        slot ∉ observations.map EntryObservation.slot := by
  induction observations using List.reverseRecOn with
  | nil => simp [viewAll]
  | append_singleton past obs ih =>
    have water : ((viewAll sealLag slot past).1.note slot obs).highWater =
        highest (past ++ [obs]) := by
      rw [highest_concat, ← viewAll_highWater sealLag slot]
      rfl
    rw [viewAll_concat]
    simp only [SlotView.step]
    rw [water]
    split
    · next done => simp [done]
    · next unsealed =>
      have before : ¬ SealedAt sealLag (highest past) slot := by
        intro done
        refine unsealed ?_
        rw [highest_concat]
        obtain ⟨ahead, behind⟩ := done
        exact ⟨by omega, by omega⟩
      rw [SlotView.note]
      by_cases own : obs.slot = slot
      · simp [own, unsealed]
      · simp only [own, if_false, ih, before, unsealed, false_or, List.map_append,
          List.map_singleton, List.mem_append, List.mem_singleton, Ne.symm own, or_false]

theorem length_batches_eq (observations : List EntryObservation) :
    (batches sealLag slot observations).length =
      (viewAll sealLag slot observations).2.length +
        if (viewAll sealLag slot observations).1.arrivals = [] then 0 else 1 := by
  rw [batches, List.length_append]
  split <;> rfl

/-- Noting an observation opens a batch or joins one; sealing only closes it. -/
theorem length_batches_concat (past : List EntryObservation) (obs : EntryObservation) :
    (batches sealLag slot (past ++ [obs])).length =
      (viewAll sealLag slot past).2.length +
        if ((viewAll sealLag slot past).1.note slot obs).arrivals = [] then 0 else 1 := by
  rw [length_batches_eq, viewAll_concat]
  simp only [SlotView.step]
  split
  · split <;> simp
  · simp

/-- **A slot has a batch when it was observed, and one more for every late arrival.** -/
theorem length_batches (observations : List EntryObservation) :
    (batches sealLag slot observations).length =
      (if slot ∈ observations.map EntryObservation.slot then 1 else 0) +
        lateArrivals sealLag slot observations := by
  induction observations using List.reverseRecOn with
  | nil => rfl
  | append_singleton past obs ih =>
    have idle := viewAll_arrivals sealLag slot past
    rw [length_batches_eq] at ih
    rw [length_batches_concat, lateArrivals, countAfter_concat, ← lateArrivals, SlotView.note]
    by_cases own : obs.slot = slot
    · have late : (obs.slot = slot ∧ Late sealLag past obs) ↔
          slot ∈ past.map EntryObservation.slot ∧ SealedAt sealLag (highest past) slot := by
        simp [Late, own]
      have seen : slot ∈ (past ++ [obs]).map EntryObservation.slot := by simp [own]
      rw [if_congr late rfl rfl, if_pos seen, if_pos own, if_neg (by simp)]
      by_cases known : slot ∈ past.map EntryObservation.slot
      · rw [if_pos known] at ih
        by_cases done : SealedAt sealLag (highest past) slot
        · rw [if_pos (idle.mpr (.inl done))] at ih
          rw [if_pos ⟨known, done⟩]
          omega
        · rw [if_neg (by simp [idle, done, known])] at ih
          rw [if_neg fun both => done both.2]
          omega
      · rw [if_neg known, if_pos (idle.mpr (.inr known))] at ih
        rw [if_neg fun both => known both.1]
        omega
    · have same : slot ∈ (past ++ [obs]).map EntryObservation.slot ↔
          slot ∈ past.map EntryObservation.slot := by
        simp [Ne.symm own]
      have aside : ¬ (obs.slot = slot ∧ Late sealLag past obs) := fun both => own both.1
      rw [if_congr same rfl rfl, if_neg own, if_neg aside, ih]
      omega

/-! ## One report for every slot -/

theorem length_reports (observations : List EntryObservation) :
    ((finish sealLag observations).sealedReports.filter
        (fun report => report.slot = slot)).length =
      (if slot ∈ observations.map EntryObservation.slot then 1 else 0) +
        lateArrivals sealLag slot observations := by
  rw [finish_reports, List.length_map, length_batches]

theorem count_reports (observations : List EntryObservation) :
    ((finish sealLag observations).sealedReports.map SlotOrderingReport.slot).count slot =
      (if slot ∈ observations.map EntryObservation.slot then 1 else 0) +
        lateArrivals sealLag slot observations := by
  rw [← length_reports, List.count, List.countP_map, List.countP_eq_length_filter]
  rfl

/-- With one report for every slot, the counter of sealed slots counts the slots. -/
theorem slotsSealed_of_noLate {observations : List EntryObservation}
    (onTime : ∀ slot, lateArrivals sealLag slot observations = 0) :
    (finish sealLag observations).counters.slotsSealed =
      (observations.map EntryObservation.slot).toFinset.card := by
  have distinct :
      ((finish sealLag observations).sealedReports.map SlotOrderingReport.slot).Nodup := by
    refine List.nodup_iff_count_le_one.mpr fun slot => ?_
    rw [count_reports, onTime]
    split <;> omega
  have same : ((finish sealLag observations).sealedReports.map
      SlotOrderingReport.slot).toFinset = (observations.map EntryObservation.slot).toFinset := by
    ext slot
    rw [List.mem_toFinset, List.mem_toFinset, ← List.count_pos_iff, count_reports, onTime]
    split <;> simp [*]
  rw [finish_slotsSealed, ← same, List.toFinset_card_of_nodup distinct, List.length_map]

/-- **Every slot is reported once, and counted once, exactly when no entry arrives after
its slot was observed and sealed.** -/
theorem reportsOnce_iff (sealLag : Nat) (observations : List EntryObservation) :
    ReportsOnce sealLag observations ↔
      EachAfter (fun past obs => ¬ Late sealLag past obs) observations := by
  constructor
  · rintro ⟨once, _⟩ before obs after split late
    have counted : 0 < lateArrivals sealLag obs.slot observations :=
      (countAfter_pos _).mpr ⟨before, obs, after, split, rfl, late⟩
    have seen : obs.slot ∈ observations.map EntryObservation.slot := by simp [split]
    have one := once obs.slot seen
    rw [length_reports, if_pos seen] at one
    omega
  · intro noLate
    have onTime : ∀ slot, lateArrivals sealLag slot observations = 0 := fun slot =>
      (countAfter_eq_zero _).mpr fun before obs after split late =>
        noLate before obs after split late.2
    refine ⟨fun slot seen => ?_, slotsSealed_of_noLate sealLag onTime⟩
    rw [length_reports, if_pos seen, onTime]

/-- A slot whose entry arrives after the slot was sealed has two reports, and three
sealed slots are counted where two were observed. -/
theorem lateEntry_reportedTwice :
    ¬ ReportsOnce 5 [Samples.obs 100 0 10 0 1, Samples.obs 106 0 10 0 2,
      Samples.obs 100 1 10 0 3] := by
  rintro ⟨_, counted⟩
  exact absurd counted (by decide +kernel)

end SenderAnalysis.OrderingTracker

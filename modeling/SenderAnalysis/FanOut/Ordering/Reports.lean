import Mathlib.Data.Finset.Dedup
import SenderAnalysis.FanOut.Ordering.SlotViews
import SenderAnalysis.FanOut.Samples
import SenderAnalysis.Foundations.Traces

/-!
# What a report says about the arrivals

`Describes` says what a report should say about the arrivals of a slot: how many
indices there were, the greatest of them, the ones missing below it, how often an
entry arrived below an index before it and by how much at most, and the transaction
count of an entry with the greatest index. The tracker keeps all of this step by
step against the greatest index so far (`progressOf_holds`).

The greatest index so far starts at zero and the last entry is noted only when the
index exceeds it. So a slot of which only the index zero arrived has no last entry,
and its report says that it ended on a tick.
-/

set_option autoImplicit false

namespace SenderAnalysis.OrderingTracker

/-! ## What a report should say -/

/-- The indices of the arrivals, in order of arrival. -/
def indices (arrivals : List EntryObservation) : List Nat :=
  arrivals.map fun obs => obs.entryIndex.toNat

/-- How far every index lies below the greatest one before it. -/
def drops : Nat → List Nat → List Nat
  | _, [] => []
  | top, idx :: rest => (top - idx) :: drops (max top idx) rest

/-- An arrival with the greatest index. -/
def IsLast (arrivals : List EntryObservation) (obs : EntryObservation) : Prop :=
  obs ∈ arrivals ∧ ∀ idx ∈ indices arrivals, idx ≤ obs.entryIndex.toNat

/-- The report describes the arrivals of the slot. -/
structure Describes (report : SlotOrderingReport) (slot : Nat) (arrivals : List EntryObservation) :
    Prop where
  slot : report.slot = slot
  entriesSeen : report.entriesSeen.toNat = (indices arrivals).toFinset.card
  maxIndex : report.maxIndex.toNat ∈ indices arrivals ∧
    ∀ idx ∈ indices arrivals, idx ≤ report.maxIndex.toNat
  missingSorted : report.missingIndices.Pairwise (· < ·)
  missing : ∀ idx : UInt32, idx ∈ report.missingIndices ↔
    idx < report.maxIndex ∧ idx.toNat ∉ indices arrivals
  outOfOrder : report.outOfOrderCount.toNat = (drops 0 (indices arrivals)).countP (0 < ·)
  maxBackwardGap : report.maxBackwardGap.toNat ∈ drops 0 (indices arrivals) ∧
    ∀ drop ∈ drops 0 (indices arrivals), drop ≤ report.maxBackwardGap.toNat
  lastEntry : ∃ obs, IsLast arrivals obs ∧ report.lastEntryTxCount = obs.txCount ∧
    report.lastEntryWasTick = (obs.txCount == 0)

/-! ## What the progress holds -/

theorem drops_concat (top : Nat) (past : List Nat) (idx : Nat) :
    drops top (past ++ [idx]) = drops top past ++ [past.foldl max top - idx] := by
  induction past generalizing top with
  | nil => rfl
  | cons first rest ih => rw [List.cons_append, drops, ih, drops, List.cons_append, List.foldl_cons]

/-- What the progress holds of the arrivals that led to it. -/
structure Holds (prog : SlotProgress) (arrivals : List EntryObservation) : Prop where
  seen : ∀ idx : UInt32, idx ∈ prog.seenIndices ↔ idx.toNat ∈ indices arrivals
  maxIndex : prog.maxIndexAtArrival.toNat = (indices arrivals).foldl max 0
  outOfOrder : prog.outOfOrder = UInt32.ofNat ((drops 0 (indices arrivals)).countP (0 < ·))
  maxBackwardGap : prog.maxBackwardGap.toNat = (drops 0 (indices arrivals)).foldl max 0
  noLast : prog.maxIndexAtArrival = 0 → prog.lastEntry = none
  last : prog.maxIndexAtArrival ≠ 0 → ∃ obs ∈ arrivals,
    obs.entryIndex = prog.maxIndexAtArrival ∧
      prog.lastEntry = some (obs.entryIndex, obs.txCount)

variable {prog : SlotProgress} {arrivals : List EntryObservation}

theorem indices_concat (past : List EntryObservation) (obs : EntryObservation) :
    indices (past ++ [obs]) = indices past ++ [obs.entryIndex.toNat] := by
  simp [indices]

theorem Holds.seen_insert (holds : Holds prog arrivals) (obs : EntryObservation) (idx : UInt32) :
    idx ∈ insert obs.entryIndex prog.seenIndices ↔
      idx.toNat ∈ indices (arrivals ++ [obs]) := by
  rw [Finset.mem_insert, holds.seen, indices_concat, List.mem_append, List.mem_singleton,
    UInt32.toNat_inj, or_comm]

/-- One more arrival adds its own drop below the greatest index so far. -/
theorem Holds.drops_observe (holds : Holds prog arrivals) (obs : EntryObservation) :
    drops 0 (indices (arrivals ++ [obs])) =
      drops 0 (indices arrivals) ++ [prog.maxIndexAtArrival.toNat - obs.entryIndex.toNat] := by
  rw [indices_concat, drops_concat, holds.maxIndex]

theorem Holds.top_observe (holds : Holds prog arrivals) (obs : EntryObservation) :
    (indices (arrivals ++ [obs])).foldl max 0 =
      max prog.maxIndexAtArrival.toNat obs.entryIndex.toNat := by
  rw [indices_concat, List.foldl_concat, holds.maxIndex]

/-- **The progress of a slot takes in one more arrival.** -/
theorem Holds.observe (holds : Holds prog arrivals) (obs : EntryObservation) :
    Holds (prog.observe obs.entryIndex obs.txCount) (arrivals ++ [obs]) := by
  have seen := holds.seen_insert obs
  have counted := holds.drops_observe obs
  have top := holds.top_observe obs
  have last : ∀ {entry}, (∃ old ∈ arrivals, old.entryIndex = prog.maxIndexAtArrival ∧
      entry = some (old.entryIndex, old.txCount)) → ∃ old ∈ arrivals ++ [obs],
        old.entryIndex = prog.maxIndexAtArrival ∧ entry = some (old.entryIndex, old.txCount) := by
    rintro entry ⟨old, member, rest⟩
    exact ⟨old, List.mem_append_left _ member, rest⟩
  unfold SlotProgress.observe
  dsimp only
  split
  · next below =>
    have less := UInt32.lt_iff_toNat_lt.mp below
    have gap : (prog.maxIndexAtArrival - obs.entryIndex).toNat =
        prog.maxIndexAtArrival.toNat - obs.entryIndex.toNat :=
      UInt32.toNat_sub_of_le _ _ (UInt32.le_iff_toNat_le.mpr (by omega))
    refine ⟨seen, ?_, ?_, ?_, holds.noLast, fun some => last (holds.last some)⟩
    · rw [top]
      exact (Nat.max_eq_left (Nat.le_of_lt less)).symm
    · have one : [prog.maxIndexAtArrival.toNat - obs.entryIndex.toNat].countP (0 < ·) = 1 := by
        rw [List.countP_singleton, if_pos (decide_eq_true (Nat.sub_pos_of_lt less))]
      rw [counted, List.countP_append, one, UInt32.ofNat_add, ← holds.outOfOrder]
      rfl
    · rw [counted, List.foldl_concat, ← holds.maxBackwardGap, ← gap]
      dsimp only
      split
      · next wider =>
        have more := UInt32.lt_iff_toNat_lt.mp wider
        omega
      · next narrower =>
        have more := mt UInt32.lt_iff_toNat_lt.mpr narrower
        omega
  · next reached =>
    have reaches := mt UInt32.lt_iff_toNat_lt.mpr reached
    have level : (drops 0 (indices (arrivals ++ [obs]))) = drops 0 (indices arrivals) ++ [0] := by
      rw [counted, Nat.sub_eq_zero_of_le (by omega)]
    have order : prog.outOfOrder =
        UInt32.ofNat ((drops 0 (indices (arrivals ++ [obs]))).countP (0 < ·)) := by
      rw [level, List.countP_append, holds.outOfOrder]
      rfl
    have gap : prog.maxBackwardGap.toNat =
        (drops 0 (indices (arrivals ++ [obs]))).foldl max 0 := by
      rw [level, List.foldl_concat, holds.maxBackwardGap, Nat.max_zero]
    split
    · next above =>
      have more := UInt32.lt_iff_toNat_lt.mp above
      refine ⟨seen, ?_, order, gap, ?_, ?_⟩
      · rw [top]
        exact (Nat.max_eq_right (Nat.le_of_lt more)).symm
      · intro zero
        rw [show obs.entryIndex = 0 from zero] at more
        simp at more
      · exact fun _ => ⟨obs, by simp, rfl, rfl⟩
    · next level =>
      have same := mt UInt32.lt_iff_toNat_lt.mpr level
      refine ⟨seen, ?_, order, gap, holds.noLast, fun some => last (holds.last some)⟩
      rw [top]
      exact (Nat.max_eq_left (Nat.le_of_not_lt same)).symm

theorem progressOf_holds (arrivals : List EntryObservation) :
    Holds (progressOf arrivals) arrivals := by
  induction arrivals using List.reverseRecOn with
  | nil =>
    exact ⟨by simp [progressOf, indices], rfl, rfl, rfl, fun _ => rfl, fun none => absurd rfl none⟩
  | append_singleton past obs ih =>
    rw [progressOf_concat]
    exact ih.observe obs

/-! ## When the report describes the arrivals -/

section Reports

variable (slot : Nat)

theorem drops_ne_nil (nonempty : arrivals ≠ []) : drops 0 (indices arrivals) ≠ [] := by
  obtain ⟨first, rest, rfl⟩ := List.exists_cons_of_ne_nil nonempty
  simp [indices, drops]

theorem indices_ne_nil (nonempty : arrivals ≠ []) : indices arrivals ≠ [] := by
  simpa [indices] using nonempty

/-- The greatest index so far is the greatest index. -/
theorem Holds.top (holds : Holds prog arrivals) (nonempty : arrivals ≠ []) :
    prog.maxIndexAtArrival.toNat ∈ indices arrivals ∧
      ∀ idx ∈ indices arrivals, idx ≤ prog.maxIndexAtArrival.toNat := by
  rw [holds.maxIndex]
  exact ⟨foldl_max_zero_mem (indices_ne_nil nonempty),
    fun _ member => le_foldl_max_of_mem member 0⟩

theorem Holds.report_maxIndex (holds : Holds prog arrivals) :
    (buildReport slot prog).maxIndex = prog.maxIndexAtArrival := by
  by_cases zero : prog.maxIndexAtArrival = 0
  · simp [buildReport, holds.noLast zero, zero]
  · obtain ⟨obs, _, index, last⟩ := holds.last zero
    simp [buildReport, last, index]

theorem Holds.card_seen (holds : Holds prog arrivals) :
    prog.seenIndices.card = (indices arrivals).toFinset.card := by
  have image : prog.seenIndices.image UInt32.toNat = (indices arrivals).toFinset := by
    ext idx
    simp only [Finset.mem_image, List.mem_toFinset, holds.seen]
    constructor
    · rintro ⟨found, listed, rfl⟩
      exact listed
    · intro listed
      obtain ⟨obs, _, rfl⟩ := List.mem_map.mp listed
      exact ⟨obs.entryIndex, listed, rfl⟩
  rw [← image, Finset.card_image_of_injective _ fun _ _ same => UInt32.toNat_inj.mp same]

theorem report_missing (prog : SlotProgress) :
    (buildReport slot prog).missingIndices =
      if prog.seenIndices = ∅ then []
      else ((List.range ((buildReport slot prog).maxIndex.toNat + 1)).map UInt32.ofNat).filter
        (· ∉ prog.seenIndices) := rfl

/-- The missing indices are those below the greatest one that never arrived. -/
theorem Holds.mem_missing (holds : Holds prog arrivals) (nonempty : arrivals ≠ []) (idx : UInt32) :
    idx ∈ (buildReport slot prog).missingIndices ↔
      idx < (buildReport slot prog).maxIndex ∧ idx.toNat ∉ indices arrivals := by
  obtain ⟨topSeen, _⟩ := holds.top nonempty
  have someSeen : prog.seenIndices ≠ ∅ :=
    Finset.ne_empty_of_mem ((holds.seen _).mpr topSeen)
  rw [report_missing, if_neg someSeen, holds.report_maxIndex, List.mem_filter,
    decide_eq_true_eq, holds.seen, UInt32.lt_iff_toNat_lt]
  refine and_congr_left fun missing => ?_
  have apart : idx.toNat ≠ prog.maxIndexAtArrival.toNat := fun same => missing (same ▸ topSeen)
  rw [List.mem_map]
  constructor
  · rintro ⟨number, within, rfl⟩
    have near := List.mem_range.mp within
    have fits := prog.maxIndexAtArrival.toNat_lt
    rw [UInt32.toNat_ofNat', Nat.mod_eq_of_lt (by omega)] at apart ⊢
    omega
  · intro below
    exact ⟨idx.toNat, List.mem_range.mpr (by omega), UInt32.ofNat_toNat⟩

theorem missing_sorted (prog : SlotProgress) :
    (buildReport slot prog).missingIndices.Pairwise (· < ·) := by
  rw [report_missing]
  split
  · exact List.Pairwise.nil
  · refine List.Pairwise.filter _ (List.pairwise_map.mpr ?_)
    refine List.pairwise_lt_range.imp_of_mem fun {first second} firstIn secondIn before => ?_
    have near := List.mem_range.mp secondIn
    have fits := (buildReport slot prog).maxIndex.toNat_lt
    rw [UInt32.lt_iff_toNat_lt, UInt32.toNat_ofNat', UInt32.toNat_ofNat',
      Nat.mod_eq_of_lt (by omega), Nat.mod_eq_of_lt (by omega)]
    exact before

/-- The report names an arrival with the greatest index when that index is above zero,
or when a tick arrived. -/
theorem Holds.lastEntry_iff (holds : Holds prog arrivals) (nonempty : arrivals ≠ []) :
    (∃ obs, IsLast arrivals obs ∧ (buildReport slot prog).lastEntryTxCount = obs.txCount ∧
        (buildReport slot prog).lastEntryWasTick = (obs.txCount == 0)) ↔
      ∃ obs ∈ arrivals, 0 < obs.entryIndex ∨ obs.txCount = 0 := by
  obtain ⟨_, above⟩ := holds.top nonempty
  by_cases zero : prog.maxIndexAtArrival = 0
  · have allZero : ∀ obs ∈ arrivals, obs.entryIndex = 0 := by
      intro obs member
      have below := above _ (List.mem_map_of_mem member)
      rw [zero] at below
      exact UInt32.toNat_inj.mp (Nat.le_zero.mp below)
    have last : ∀ obs ∈ arrivals, IsLast arrivals obs := by
      intro obs member
      refine ⟨member, fun idx listed => ?_⟩
      have below := above idx listed
      rwa [zero, ← allZero obs member] at below
    simp only [buildReport, holds.noLast zero]
    constructor
    · rintro ⟨obs, ⟨member, _⟩, none, _⟩
      exact ⟨obs, member, .inr none.symm⟩
    · rintro ⟨obs, member, positive | tick⟩
      · rw [allZero obs member] at positive
        exact absurd positive (by decide)
      · exact ⟨obs, last obs member, by simp [tick], by simp [tick]⟩
  · obtain ⟨obs, member, index, last⟩ := holds.last zero
    refine iff_of_true ⟨obs, ⟨member, ?_⟩, by simp [buildReport, last], by simp [buildReport, last]⟩
      ⟨obs, member, .inl ?_⟩
    · rwa [index]
    · rw [index]
      exact UInt32.lt_iff_toNat_lt.mpr
        (Nat.pos_of_ne_zero fun none => zero (UInt32.toNat_inj.mp none))

/-- **A report describes its batch exactly when a tick or an index above zero arrived**,
and the counts fit 32 bits. -/
theorem reportOf_describes_iff (nonempty : arrivals ≠ []) :
    Describes (reportOf slot arrivals) slot arrivals ↔
      (∃ obs ∈ arrivals, 0 < obs.entryIndex ∨ obs.txCount = 0) ∧
        (drops 0 (indices arrivals)).countP (0 < ·) < 2 ^ 32 ∧
        (indices arrivals).toFinset.card < 2 ^ 32 := by
  have holds := progressOf_holds arrivals
  have seen : (reportOf slot arrivals).entriesSeen.toNat =
      (indices arrivals).toFinset.card % 2 ^ 32 := by
    rw [← holds.card_seen]
    exact UInt32.toNat_ofNat'
  have order : (reportOf slot arrivals).outOfOrderCount.toNat =
      (drops 0 (indices arrivals)).countP (0 < ·) % 2 ^ 32 := by
    have kept : (reportOf slot arrivals).outOfOrderCount = (progressOf arrivals).outOfOrder := rfl
    rw [kept, holds.outOfOrder]
    exact UInt32.toNat_ofNat'
  have last := holds.lastEntry_iff slot nonempty
  constructor
  · intro describes
    refine ⟨last.mp describes.lastEntry, ?_, ?_⟩
    · have counted := describes.outOfOrder
      omega
    · have counted := describes.entriesSeen
      omega
  · rintro ⟨named, fewDrops, fewSeen⟩
    refine ⟨rfl, ?_, ?_, missing_sorted slot _, holds.mem_missing slot nonempty, ?_, ?_,
      last.mpr named⟩
    · rw [seen, Nat.mod_eq_of_lt fewSeen]
    · rw [reportOf, holds.report_maxIndex]
      exact holds.top nonempty
    · rw [order, Nat.mod_eq_of_lt fewDrops]
    · rw [show (reportOf slot arrivals).maxBackwardGap = (progressOf arrivals).maxBackwardGap from
        rfl, holds.maxBackwardGap]
      exact ⟨foldl_max_zero_mem (drops_ne_nil nonempty),
        fun _ member => le_foldl_max_of_mem member 0⟩

end Reports

/-! ## The reports of a run -/

theorem viewAll_flatten (sealLag slot : Nat) (observations : List EntryObservation) :
    (viewAll sealLag slot observations).2.flatten ++
        (viewAll sealLag slot observations).1.arrivals =
          observations.filter (fun obs => obs.slot = slot) ∧
      ∀ arrivals ∈ (viewAll sealLag slot observations).2, arrivals ≠ [] := by
  induction observations using List.reverseRecOn with
  | nil => exact ⟨rfl, by simp [viewAll]⟩
  | append_singleton past obs ih =>
    obtain ⟨whole, nonempty⟩ := ih
    have joined : (viewAll sealLag slot past).2.flatten ++
        ((viewAll sealLag slot past).1.note slot obs).arrivals =
          (past ++ [obs]).filter fun obs => obs.slot = slot := by
      rw [List.filter_append, ← whole, SlotView.note]
      by_cases own : obs.slot = slot <;> simp [own]
    rw [viewAll_concat, ← joined]
    simp only [SlotView.step]
    split
    · split
      · next idle => exact ⟨by simp [idle], by simpa using nonempty⟩
      · next busy =>
        refine ⟨by simp, fun arrivals member => ?_⟩
        rcases List.mem_append.mp member with old | new
        · exact nonempty arrivals old
        · rwa [List.mem_singleton.mp new]
    · exact ⟨by simp, by simpa using nonempty⟩

/-- The batches of a slot are its arrivals, cut where the slot was sealed, and none of
them is empty. -/
theorem batches_flatten (sealLag slot : Nat) (observations : List EntryObservation) :
    (batches sealLag slot observations).flatten =
        observations.filter (fun obs => obs.slot = slot) ∧
      ∀ arrivals ∈ batches sealLag slot observations, arrivals ≠ [] := by
  obtain ⟨whole, nonempty⟩ := viewAll_flatten sealLag slot observations
  unfold batches
  rw [← whole]
  split
  · next idle => simpa [idle] using nonempty
  · next busy =>
    refine ⟨by simp, fun arrivals member => ?_⟩
    rcases List.mem_append.mp member with old | new
    · exact nonempty arrivals old
    · rwa [List.mem_singleton.mp new]

/-- **The reports of a run, and when they describe the arrivals.** The reports on a slot
are the reports on its batches, which together are its arrivals. A report describes
its batch exactly when an index above zero or a tick is in the batch, and the counts
fit 32 bits. -/
theorem reports_describe_iff (sealLag slot : Nat) (observations : List EntryObservation) :
    (finish sealLag observations).sealedReports.filter (fun report => report.slot = slot) =
        (batches sealLag slot observations).map (reportOf slot) ∧
      (batches sealLag slot observations).flatten =
        observations.filter (fun obs => obs.slot = slot) ∧
      ∀ arrivals ∈ batches sealLag slot observations,
        (Describes (reportOf slot arrivals) slot arrivals ↔
          (∃ obs ∈ arrivals, 0 < obs.entryIndex ∨ obs.txCount = 0) ∧
            (drops 0 (indices arrivals)).countP (0 < ·) < 2 ^ 32 ∧
            (indices arrivals).toFinset.card < 2 ^ 32) := by
  obtain ⟨whole, nonempty⟩ := batches_flatten sealLag slot observations
  exact ⟨finish_reports sealLag slot observations, whole,
    fun arrivals member => reportOf_describes_iff slot (nonempty arrivals member)⟩

/-- The report on a slot of which one entry with transactions arrived, at index zero,
says that the slot ended on a tick. -/
theorem soleEntry_notDescribed :
    (finish 5 [Samples.obs 100 0 10 3 1]).sealedReports =
        [reportOf 100 [Samples.obs 100 0 10 3 1]] ∧
      ¬ Describes (reportOf 100 [Samples.obs 100 0 10 3 1]) 100 [Samples.obs 100 0 10 3 1] := by
  refine ⟨by decide +kernel, fun describes => ?_⟩
  obtain ⟨obs, ⟨member, _⟩, count, _⟩ := describes.lastEntry
  obtain rfl := List.mem_singleton.mp member
  exact absurd count (by decide +kernel)

end SenderAnalysis.OrderingTracker

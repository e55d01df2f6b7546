import SenderAnalysis.FanOut.Ordering.Model

/-!
# The tracker, seen from one slot

What the tracker does with one slot depends on the slot's own entries and on the
highest slot observed, and on nothing else. `SlotView` is this part of the tracker:
the arrivals of the slot that no report has described yet. When the highest slot is
far enough ahead, the arrivals are closed as one batch, and the report on the slot
is the report on that batch. `observeAll_views` connects the two: for every slot,
the tracker holds the progress of the slot's view, and its reports on the slot are
the reports on the batches.
-/

set_option autoImplicit false

namespace SenderAnalysis.OrderingTracker

open Std

/-! ## The view of one slot -/

/-- The highest slot is far enough ahead of a slot for it to be sealed. -/
def SealedAt (sealLag highWater slot : Nat) : Prop :=
  sealLag < highWater ∧ slot ≤ highWater - sealLag

instance (sealLag highWater slot : Nat) : Decidable (SealedAt sealLag highWater slot) :=
  inferInstanceAs (Decidable (_ ∧ _))

/-- The highest slot, and the arrivals of one slot that were not reported yet. -/
structure SlotView where
  highWater : Nat := 0
  arrivals : List EntryObservation := []

/-- An observation raises the highest slot and joins the arrivals of its slot. -/
def SlotView.note (slot : Nat) (view : SlotView) (obs : EntryObservation) : SlotView where
  highWater := max view.highWater obs.slot
  arrivals := if obs.slot = slot then view.arrivals ++ [obs] else view.arrivals

/-- Note an observation; a slot that is far enough behind closes its arrivals. -/
def SlotView.step (sealLag slot : Nat) (view : SlotView) (obs : EntryObservation) :
    SlotView × List (List EntryObservation) :=
  let noted := view.note slot obs
  if SealedAt sealLag noted.highWater slot then
    ({ noted with arrivals := [] }, if noted.arrivals = [] then [] else [noted.arrivals])
  else (noted, [])

/-- The view of a slot after observations, and the batches closed by then. -/
def viewAll (sealLag slot : Nat) (observations : List EntryObservation) :
    SlotView × List (List EntryObservation) :=
  runAll (SlotView.step sealLag slot) {} observations

theorem viewAll_concat (sealLag slot : Nat) (past : List EntryObservation)
    (obs : EntryObservation) :
    viewAll sealLag slot (past ++ [obs]) =
      (((viewAll sealLag slot past).1.step sealLag slot obs).1,
        (viewAll sealLag slot past).2 ++ ((viewAll sealLag slot past).1.step sealLag slot obs).2) :=
  runAll_concat ..

/-- The arrivals of a slot, cut where the slot was sealed; the last batch is closed at
shutdown. -/
def batches (sealLag slot : Nat) (observations : List EntryObservation) :
    List (List EntryObservation) :=
  (viewAll sealLag slot observations).2 ++
    if (viewAll sealLag slot observations).1.arrivals = [] then []
    else [(viewAll sealLag slot observations).1.arrivals]

/-- The progress that a list of arrivals leads to. -/
def progressOf (arrivals : List EntryObservation) : SlotProgress :=
  arrivals.foldl (fun prog obs => prog.observe obs.entryIndex obs.txCount) {}

/-- The report on a batch. -/
def reportOf (slot : Nat) (arrivals : List EntryObservation) : SlotOrderingReport :=
  buildReport slot (progressOf arrivals)

/-- A slot is in progress when it has arrivals that were not reported yet. -/
def SlotView.progress (view : SlotView) : Option SlotProgress :=
  if view.arrivals = [] then none else some (progressOf view.arrivals)

theorem progressOf_concat (arrivals : List EntryObservation) (obs : EntryObservation) :
    progressOf (arrivals ++ [obs]) = (progressOf arrivals).observe obs.entryIndex obs.txCount := by
  rw [progressOf, List.foldl_concat]
  rfl

theorem SlotView.progress_getD (view : SlotView) :
    view.progress.getD {} = progressOf view.arrivals := by
  unfold progress
  split
  · next none => rw [none]; rfl
  · rfl

/-! ## The tracker holds the view of every slot -/

/-- The tracker holds the view of a slot. -/
structure Views (tracker : OrderingTracker) (sealLag slot : Nat) (view : SlotView) : Prop where
  sealLag : tracker.sealLag = sealLag
  highWater : tracker.highWater = view.highWater
  progress : tracker.inProgress[slot]? = view.progress

variable {tracker : OrderingTracker} {sealLag slot : Nat} {view : SlotView}

theorem note_highWater (obs : EntryObservation) :
    (tracker.note obs).highWater = max tracker.highWater obs.slot := by
  simp only [note]
  split <;> omega

theorem note_progress (views : tracker.Views sealLag slot view) (obs : EntryObservation) :
    (tracker.note obs).inProgress[slot]? = (view.note slot obs).progress := by
  simp only [note, SlotView.note, ExtTreeMap.getElem?_insert, Nat.compare_eq_eq]
  by_cases own : obs.slot = slot
  · subst own
    rw [if_pos rfl, if_pos rfl, views.progress, SlotView.progress_getD, ← progressOf_concat]
    simp [SlotView.progress]
  · rw [if_neg own, if_neg own, views.progress]
    rfl

theorem filterMap_reports {slots : List Nat} (distinct : slots.Nodup)
    (inProgress : ExtTreeMap Nat SlotProgress) (slot : Nat) :
    (slots.filterMap fun other => (inProgress[other]?).map (buildReport other)).filter
        (fun report => report.slot = slot) =
      if slot ∈ slots then ((inProgress[slot]?).map (buildReport slot)).toList else [] := by
  induction slots with
  | nil => simp
  | cons first rest ih =>
    obtain ⟨fresh, distinct⟩ := List.nodup_cons.mp distinct
    rw [List.filterMap_cons]
    by_cases here : first = slot
    · subst here
      have none := ih distinct
      rw [if_neg fresh] at none
      rw [if_pos (List.mem_cons_self ..)]
      cases inProgress[first]? with
      | none => simpa using none
      | some prog => simpa [buildReport] using none
    · have membership : slot ∈ first :: rest ↔ slot ∈ rest := by simp [Ne.symm here]
      rw [if_congr membership rfl rfl, ← ih distinct]
      cases inProgress[first]? with
      | none => rfl
      | some prog => simp [buildReport, here]

/-- Sealing empties the view of a slot that lies far enough behind. -/
theorem maybeSeal_views (views : tracker.Views sealLag slot view) :
    (tracker.maybeSeal).1.Views sealLag slot
        (if SealedAt sealLag view.highWater slot then { view with arrivals := [] } else view) ∧
      (tracker.maybeSeal).2.filter (fun report => report.slot = slot) =
        if SealedAt sealLag view.highWater slot then
          (view.progress.map (buildReport slot)).toList
        else [] := by
  obtain ⟨lag, water, progress⟩ := views
  unfold maybeSeal
  rw [water, lag]
  dsimp only
  split
  · next near =>
    have unsealed : ¬ SealedAt sealLag view.highWater slot := fun far => absurd far.1 (by omega)
    rw [if_neg unsealed, if_neg unsealed]
    exact ⟨⟨lag, water, progress⟩, rfl⟩
  · next far =>
    have distinct : (tracker.inProgress.keys.filter (· ≤ view.highWater - sealLag)).Nodup :=
      (OrderedMap.nodup_keys _).filter _
    obtain ⟨forgotten, reports⟩ := sealAll_spec tracker distinct
    obtain ⟨water', lag', _⟩ := sealAll_frame tracker
      (tracker.inProgress.keys.filter (· ≤ view.highWater - sealLag))
    rw [reports, filterMap_reports distinct, ← progress]
    have listed : slot ∈ tracker.inProgress.keys.filter (· ≤ view.highWater - sealLag) ↔
        (tracker.inProgress[slot]?).isSome ∧ slot ≤ view.highWater - sealLag := by
      rw [List.mem_filter, ExtTreeMap.mem_keys, ExtTreeMap.mem_iff_isSome_getElem?,
        decide_eq_true_eq]
    by_cases behind : slot ≤ view.highWater - sealLag
    · have done : SealedAt sealLag view.highWater slot := ⟨by omega, behind⟩
      rw [if_pos done, if_pos done]
      refine ⟨⟨lag'.trans lag, water'.trans water, ?_⟩, ?_⟩
      · rw [forgotten]
        split
        · rfl
        · next unlisted =>
          cases present : tracker.inProgress[slot]? with
          | none => rfl
          | some prog => exact absurd (listed.mpr ⟨by simp [present], behind⟩) unlisted
      · cases present : tracker.inProgress[slot]? with
        | none => simp
        | some prog => rw [if_pos (listed.mpr ⟨by simp [present], behind⟩)]
    · have unsealed : ¬ SealedAt sealLag view.highWater slot := fun far => behind far.2
      rw [if_neg unsealed, if_neg unsealed]
      have absent := fun member => behind (listed.mp member).2
      refine ⟨⟨lag'.trans lag, water'.trans water, ?_⟩, if_neg absent⟩
      rw [forgotten, if_neg absent, progress]

theorem observe_views (views : tracker.Views sealLag slot view) (obs : EntryObservation) :
    (tracker.observe obs).1.Views sealLag slot (view.step sealLag slot obs).1 ∧
      (tracker.observe obs).2.filter (fun report => report.slot = slot) =
        (view.step sealLag slot obs).2.map (reportOf slot) := by
  have noted : (tracker.note obs).Views sealLag slot (view.note slot obs) := by
    refine ⟨views.sealLag, ?_, note_progress views obs⟩
    rw [note_highWater, views.highWater]
    rfl
  obtain ⟨held, reports⟩ := maybeSeal_views noted
  unfold observe SlotView.step
  dsimp only
  split
  · next done =>
    rw [if_pos done] at held reports
    refine ⟨held, reports.trans ?_⟩
    unfold SlotView.progress
    split <;> simp [reportOf]
  · next unsealed =>
    rw [if_neg unsealed] at held reports
    exact ⟨held, reports⟩

/-- **For every slot, the tracker holds the slot's view, and its reports on the slot
are the reports on the batches closed so far.** -/
theorem observeAll_views (sealLag slot : Nat) (observations : List EntryObservation) :
    (observeAll sealLag observations).1.Views sealLag slot
        (viewAll sealLag slot observations).1 ∧
      (observeAll sealLag observations).2.filter (fun report => report.slot = slot) =
        (viewAll sealLag slot observations).2.map (reportOf slot) := by
  induction observations using List.reverseRecOn with
  | nil => exact ⟨⟨rfl, rfl, by simp [observeAll, new, viewAll, SlotView.progress]⟩, rfl⟩
  | append_singleton past obs ih =>
    obtain ⟨views, reports⟩ := ih
    obtain ⟨held, more⟩ := observe_views views obs
    rw [observeAll, viewAll_concat, runAll_concat]
    refine ⟨held, ?_⟩
    rw [List.filter_append, List.map_append]
    exact congrArg₂ _ reports more

/-- What is answered is also kept, and counted. -/
theorem observe_sealedReports (tracker : OrderingTracker) (obs : EntryObservation) :
    (tracker.observe obs).1.sealedReports =
        tracker.sealedReports ++ (tracker.observe obs).2 ∧
      (tracker.observe obs).1.counters.slotsSealed =
        tracker.counters.slotsSealed + (tracker.observe obs).2.length := by
  unfold observe maybeSeal
  dsimp only
  split
  · simp [note]
  · obtain ⟨_, _, reports, counted⟩ := sealAll_frame (tracker.note obs)
      ((tracker.note obs).inProgress.keys.filter
        (· ≤ (tracker.note obs).highWater - (tracker.note obs).sealLag))
    exact ⟨reports, counted⟩

theorem observeAll_sealedReports (sealLag : Nat) (observations : List EntryObservation) :
    (observeAll sealLag observations).1.sealedReports = (observeAll sealLag observations).2 ∧
      (observeAll sealLag observations).1.counters.slotsSealed =
        (observeAll sealLag observations).2.length := by
  induction observations using List.reverseRecOn with
  | nil => exact ⟨rfl, rfl⟩
  | append_singleton past obs ih =>
    obtain ⟨reports, counted⟩ := ih
    obtain ⟨more, added⟩ := observe_sealedReports (observeAll sealLag past).1 obs
    rw [observeAll, runAll_concat, List.length_append]
    exact ⟨more.trans (congrArg (· ++ _) reports), added.trans (congrArg (· + _) counted)⟩

/-- The counter of sealed slots counts the reports. -/
theorem finish_slotsSealed (sealLag : Nat) (observations : List EntryObservation) :
    (finish sealLag observations).counters.slotsSealed =
      (finish sealLag observations).sealedReports.length := by
  obtain ⟨reports, counted⟩ := observeAll_sealedReports sealLag observations
  obtain ⟨_, _, more, added⟩ := sealAll_frame (observeAll sealLag observations).1
    (observeAll sealLag observations).1.inProgress.keys
  refine added.trans ?_
  rw [counted, ← reports, ← List.length_append]
  exact congrArg List.length more.symm

/-- **After the shutdown, the reports on a slot are the reports on its batches.** -/
theorem finish_reports (sealLag slot : Nat) (observations : List EntryObservation) :
    (finish sealLag observations).sealedReports.filter (fun report => report.slot = slot) =
      (batches sealLag slot observations).map (reportOf slot) := by
  obtain ⟨views, reports⟩ := observeAll_views sealLag slot observations
  obtain ⟨kept, _⟩ := observeAll_sealedReports sealLag observations
  have distinct := OrderedMap.nodup_keys (observeAll sealLag observations).1.inProgress
  obtain ⟨_, flushed⟩ := sealAll_spec (observeAll sealLag observations).1 distinct
  obtain ⟨_, _, more, _⟩ := sealAll_frame (observeAll sealLag observations).1
    (observeAll sealLag observations).1.inProgress.keys
  refine (congrArg (List.filter _) more).trans ?_
  rw [List.filter_append, kept, reports, flushed, filterMap_reports distinct, views.progress,
    batches, List.map_append]
  refine congrArg (_ ++ ·) ?_
  have present : slot ∈ (observeAll sealLag observations).1.inProgress.keys ↔
      (viewAll sealLag slot observations).1.arrivals ≠ [] := by
    rw [ExtTreeMap.mem_keys, ExtTreeMap.mem_iff_isSome_getElem?, views.progress,
      SlotView.progress]
    split <;> simp [*]
  rw [if_congr present rfl rfl, SlotView.progress]
  by_cases idle : (viewAll sealLag slot observations).1.arrivals = []
  · simp [idle]
  · simp [idle, reportOf]

end SenderAnalysis.OrderingTracker

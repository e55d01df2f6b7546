import SenderAnalysis.FanOut.Samples
import SenderAnalysis.FanOut.TriggerEngine.Firing

/-!
# Firing once while fired ticks are forgotten

The engine discards the fired ticks of old slots while it runs, and the schedule may be
another one at every entry. A hit is an entry that carries a tick which is scheduled at
that moment.

The fired set holds hits only, and it holds every hit of a slot that the entries seen so
far have not left more than 256 behind (`Remembers`). This needs no assumption about the
order of the entries. When no entry comes for a slot that was left so far behind, the
engine therefore knows at every hit whether it is the first of its slot and tick.
-/

set_option autoImplicit false

namespace SenderAnalysis.TriggerEngine

/-- The slot and tick an input hits. -/
def Input.hit? : Input → Option (Nat × Nat)
  | .receive (.entry e) schedule _ =>
      if Scheduled schedule e then some (e.slot, e.tickIdxInSlot) else none
  | .receive (.missing _) _ _ | .receive (.slotComplete _) _ _
  | .receive (.slotIncomplete _) _ _ | .insertPending _ => none

/-- The scheduled hits, in order. -/
def hits (inputs : List Input) : List (Nat × Nat) := inputs.filterMap Input.hit?

/-- The highest slot of an entry so far. -/
def highestSlot (inputs : List Input) : Nat :=
  ((entriesOf inputs).map fun entry => entry.slot).foldl max 0

/-- No entry is of a slot more than 256 behind the highest. -/
def InWindow (inputs : List Input) : Prop :=
  EachAfter (fun past input => ∀ entry ∈ input.event?.bind OrderedEvent.ordered?,
    entry.slot ≥ highestSlot past - firedWindowSlots) inputs

/-- How many hits are counted as suppressed. -/
def suppressed (effects : List EngineEffect) : Nat := counted .scheduleDuplicateSuppressed effects

theorem hits_concat (past : List Input) (input : Input) :
    hits (past ++ [input]) = hits past ++ input.hit?.toList := by
  rw [hits, List.filterMap_append]
  cases found : input.hit? <;> simp [found, hits]

theorem highestSlot_entry (past : List Input) (e : OrderedEntry) (schedule : Finset (Nat × Nat))
    (now : Instant) :
    highestSlot (past ++ [.receive (.entry e) schedule now]) = max (highestSlot past) e.slot := by
  simp [highestSlot, entriesOf, Input.event?, OrderedEvent.ordered?]

theorem highestSlot_concat_le (past : List Input) (input : Input) :
    highestSlot past ≤ highestSlot (past ++ [input]) := by
  simp only [highestSlot, entriesOf, List.filterMap_append, List.map_append, List.foldl_append]
  cases found : input.event?.bind OrderedEvent.ordered? with
  | none => simp [found]
  | some entry => simp [found]

/-! ## One input -/

section OneInput

variable (engine : State)

theorem matching_suppressed (entry : OrderedEntry) (now : Instant)
    (signatures : List Signature) :
    suppressed (runAll (matchSignature entry now) engine signatures).2 = 0 := by
  induction signatures generalizing engine with
  | nil => rfl
  | cons signature rest ih =>
    have head : suppressed (matchSignature entry now engine signature).2 = 0 := by
      unfold matchSignature
      split <;> rfl
    rw [runAll_cons, suppressed, counted_append]
    exact (congrArg₂ (· + ·) head (ih _)).trans (Nat.add_zero 0)

theorem suppressed_scheduleCheck (schedule : Finset (Nat × Nat)) (entry : OrderedEntry)
    (now : Instant) :
    suppressed (scheduleCheck engine schedule entry now).2 =
      if Scheduled schedule entry ∧ (entry.slot, entry.tickIdxInSlot) ∈ engine.fired then 1
      else 0 := by
  by_cases scheduled : Scheduled schedule entry
  · have plain := scheduled
    unfold Scheduled at plain
    by_cases old : (entry.slot, entry.tickIdxInSlot) ∈ engine.fired
    · simp [scheduleCheck, plain, scheduled, old, suppressed]
    · cases uncertain : entry.tickUncertain <;>
        simp [scheduleCheck, plain, scheduled, old, suppressed, uncertain]
  · have plain := scheduled
    unfold Scheduled at plain
    simp [scheduleCheck, plain, scheduled, suppressed]

theorem suppressed_handleEntry (schedule : Finset (Nat × Nat)) (entry : OrderedEntry)
    (now : Instant) :
    suppressed (handleEntry engine schedule entry now).2 =
      if Scheduled schedule entry ∧ (entry.slot, entry.tickIdxInSlot) ∈ engine.fired then 1
      else 0 := by
  have check := suppressed_scheduleCheck
    (recordEntryHash engine entry.slot entry.observation.entryHash) schedule entry now
  have silent := matching_suppressed
    (scheduleCheck (recordEntryHash engine entry.slot entry.observation.entryHash) schedule
      entry now).1 entry now entry.observation.signatures
  simp only [suppressed] at check silent ⊢
  have kept : (recordEntryHash engine entry.slot entry.observation.entryHash).fired =
      engine.fired := rfl
  rw [handleEntry, counted_fetchAdd, counted_append, check, silent, kept]
  simp

/-- **An input fires what it hits, unless that was fired before.** -/
theorem firings_step (input : Input) (slot tick : Nat) :
    firings slot tick (step engine input).2 =
      if input.hit? = some (slot, tick) ∧ (slot, tick) ∉ engine.fired then 1 else 0 := by
  cases input with
  | insertPending signature => rfl
  | receive event schedule now =>
    cases event with
    | missing m => rfl
    | slotComplete c => rfl
    | slotIncomplete i => rfl
    | entry e =>
      change firings slot tick (handleEntry engine schedule e now).2 = _
      rw [firings_handleEntry]
      by_cases scheduled : Scheduled schedule e
      · by_cases own : e.slot = slot ∧ e.tickIdxInSlot = tick
        · obtain ⟨rfl, rfl⟩ := own
          simp [Input.hit?, scheduled]
        · have apart : ¬ (e.slot, e.tickIdxInSlot) = (slot, tick) := by simpa using own
          simp [Input.hit?, scheduled, own]
      · simp [Input.hit?, scheduled]

/-- **A hit that was fired before is counted as suppressed.** -/
theorem suppressed_step (input : Input) :
    suppressed (step engine input).2 =
      if ∃ key ∈ input.hit?, key ∈ engine.fired then 1 else 0 := by
  cases input with
  | insertPending signature => simp [Input.hit?, step, suppressed]
  | receive event schedule now =>
    cases event with
    | missing m => simp [Input.hit?, step, handle, suppressed]
    | slotComplete c => simp [Input.hit?, step, handle, suppressed]
    | slotIncomplete i => simp [Input.hit?, step, handle, suppressed]
    | entry e =>
      change suppressed (handleEntry engine schedule e now).2 = _
      rw [suppressed_handleEntry]
      by_cases scheduled : Scheduled schedule e
      · simp [Input.hit?, scheduled]
      · simp [Input.hit?, scheduled]

end OneInput

/-! ## What the fired set remembers -/

/-- The fired set holds hits, and all hits of slots that are not left behind. -/
structure Remembers (past : List Input) (engine : State) : Prop where
  hit : ∀ key ∈ engine.fired, key ∈ hits past
  recent : ∀ key ∈ hits past, highestSlot past ≤ key.1 + firedWindowSlots → key ∈ engine.fired

/-- An input that is no hit and leaves the fired set alone. -/
theorem Remembers.idle {past : List Input} {engine after : State}
    (remembers : Remembers past engine) {input : Input} (silent : input.hit? = none)
    (same : after.fired = engine.fired) : Remembers (past ++ [input]) after where
  hit key member := by
    rw [hits_concat, silent, Option.toList_none, List.append_nil]
    exact remembers.hit key (same ▸ member)
  recent key member near := by
    rw [hits_concat, silent, Option.toList_none, List.append_nil] at member
    rw [same]
    exact remembers.recent key member ((highestSlot_concat_le past input).trans near)

/-- **Compaction forgets only what has left the window.** -/
theorem Remembers.step {past : List Input} {engine : State} (remembers : Remembers past engine)
    (input : Input) : Remembers (past ++ [input]) (step engine input).1 := by
  cases input with
  | insertPending signature => exact remembers.idle rfl rfl
  | receive event schedule now =>
    cases event with
    | missing m => exact remembers.idle rfl rfl
    | slotComplete c => exact remembers.idle rfl rfl
    | slotIncomplete i => exact remembers.idle rfl rfl
    | entry e =>
      have own : ∀ key, key ∈ (Input.receive (.entry e) schedule now).hit?.toList ↔
          Scheduled schedule e ∧ key = (e.slot, e.tickIdxInSlot) := by
        intro key
        by_cases scheduled : Scheduled schedule e <;> simp [Input.hit?, scheduled]
      constructor
      · intro key member
        rw [hits_concat, List.mem_append, own]
        exact (mem_fired_handleEntry engine schedule e now member).imp_left (remembers.hit key)
      · intro key member near
        rw [hits_concat, List.mem_append, own] at member
        rw [highestSlot_entry] at near
        refine fired_handleEntry_of_mem engine schedule e now (by omega) ?_
        exact member.imp_left fun old => remembers.recent key old (by omega)

theorem remembers_run {start : State} (blank : start.fired = ∅) (inputs : List Input) :
    Remembers inputs (run start inputs).1 := by
  induction inputs using List.reverseRecOn with
  | nil =>
    constructor
    · intro key member
      rw [run, runAll_nil, blank] at member
      simp at member
    · intro key member
      cases member
  | append_singleton past input ih =>
    rw [run, runAll_concat]
    exact ih.step input

/-- At a hit inside the window, the fired set holds the slot and tick exactly when it
was hit before. -/
theorem Remembers.fired_iff {past : List Input} {engine : State}
    (remembers : Remembers past engine) {input : Input}
    (inWindow : ∀ entry ∈ input.event?.bind OrderedEvent.ordered?,
      entry.slot ≥ highestSlot past - firedWindowSlots)
    {key : Nat × Nat} (hit : input.hit? = some key) :
    key ∈ engine.fired ↔ key ∈ hits past := by
  refine ⟨remembers.hit key, fun old => remembers.recent key old ?_⟩
  cases input with
  | insertPending signature => cases hit
  | receive event schedule now =>
    cases event with
    | missing m => cases hit
    | slotComplete c => cases hit
    | slotIncomplete i => cases hit
    | entry e =>
      have near : e.slot ≥ highestSlot past - firedWindowSlots := inWindow e rfl
      by_cases scheduled : Scheduled schedule e
      · have own : (e.slot, e.tickIdxInSlot) = key := by
          simpa [Input.hit?, scheduled] using hit
        rw [← own]
        show highestSlot past ≤ e.slot + firedWindowSlots
        omega
      · simp [Input.hit?, scheduled] at hit

/-! ## Whole runs -/

/-- What becomes of a hit: the first of its slot and tick fires, any later one is
counted as suppressed. -/
def Settled (start : State) (past : List Input) (input : Input) : Prop :=
  ∀ slot tick, input.hit? = some (slot, tick) →
    ((slot, tick) ∉ hits past ∧ firings slot tick (step (run start past).1 input).2 = 1 ∧
      suppressed (step (run start past).1 input).2 = 0) ∨
    ((slot, tick) ∈ hits past ∧ firings slot tick (step (run start past).1 input).2 = 0 ∧
      suppressed (step (run start past).1 input).2 = 1)

/-- What fires in a run are the hits, each of them once. -/
theorem firings_run {start : State} (blank : start.fired = ∅) {inputs : List Input}
    (inWindow : InWindow inputs) (slot tick : Nat) :
    firings slot tick (run start inputs).2 = if (slot, tick) ∈ hits inputs then 1 else 0 := by
  induction inputs using List.reverseRecOn with
  | nil => rfl
  | append_singleton past input ih =>
    obtain ⟨before, near⟩ := eachAfter_concat.mp inWindow
    rw [run, runAll_concat, firings_append, hits_concat]
    change firings slot tick (run start past).2 +
      firings slot tick (step (run start past).1 input).2 = _
    rw [ih before, firings_step]
    by_cases hit : input.hit? = some (slot, tick)
    · have known := (remembers_run blank past).fired_iff near hit
      by_cases old : (slot, tick) ∈ hits past <;> simp [hit, old, known]
    · have apart : (slot, tick) ∉ input.hit?.toList := by
        intro member
        exact hit (Option.mem_toList.mp member)
      simp [hit, apart]

/-- **Every slot and tick that is hit fires exactly once, and every further hit is
counted as suppressed, whatever the schedules and although fired ticks are forgotten.** -/
theorem fires_once (start : State) (blank : start.fired = ∅) (inputs : List Input)
    (inWindow : InWindow inputs) :
    (∀ slot tick, firings slot tick (run start inputs).2 =
        if (slot, tick) ∈ hits inputs then 1 else 0) ∧
      EachAfter (Settled start) inputs := by
  refine ⟨firings_run blank inWindow, ?_⟩
  induction inputs using List.reverseRecOn with
  | nil => exact eachAfter_nil _
  | append_singleton past input ih =>
    obtain ⟨before, near⟩ := eachAfter_concat.mp inWindow
    refine eachAfter_concat.mpr ⟨ih before, ?_⟩
    intro slot tick hit
    have known := (remembers_run blank past).fired_iff near hit
    rw [firings_step, suppressed_step]
    by_cases old : (slot, tick) ∈ hits past
    · exact .inr ⟨old, by simp [known, old], by simp [hit, known, old]⟩
    · exact .inl ⟨old, by simp [hit, known, old], by simp [hit, known, old]⟩

/-- An entry of a slot, with its tick. -/
def sampleEntry (slot tick : Nat) : OrderedEvent :=
  .entry {
    slot := slot, entryIndex := 0, tickIdxInSlot := tick, cumulativeHashesInSlot := 62500,
    observation := Samples.obs slot 0 62500 0 1, wasReordered := false, waitDurationUs := 0,
    tickUncertain := false }

/-- A scheduled tick on two entries, a slot that makes the engine forget, and the tick of
a slot that the engine still remembers. -/
def compactingInputs : List Input :=
  [.receive (sampleEntry 200 5) {(200, 5)} 1, .receive (sampleEntry 200 5) {(200, 5)} 2,
    .receive (sampleEntry 300 1) {(200, 5)} 3, .receive (sampleEntry 200 5) {(200, 5), (7, 7)} 4]

theorem fires_once_compacting :
    firings 200 5 (run {} compactingInputs).2 = 1 := by
  have inWindow : InWindow compactingInputs := by
    change EachAfter _ ([] ++ [_] ++ [_] ++ [_] ++ [_])
    rw [eachAfter_concat, eachAfter_concat, eachAfter_concat, eachAfter_concat]
    refine ⟨⟨⟨⟨eachAfter_nil _, ?_⟩, ?_⟩, ?_⟩, ?_⟩
    all_goals
      rintro entry ⟨⟩
      decide
  have once := (fires_once {} rfl compactingInputs inWindow).1 200 5
  exact once.trans (by decide +kernel)

end SenderAnalysis.TriggerEngine

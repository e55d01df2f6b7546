import SenderAnalysis.FanOut.PohSupervisor.Lifecycle
import SenderAnalysis.FanOut.PohSupervisor.Replays

/-!
# What becomes of an arrival

The supervisor accepts an arrival whose slot is open, whose index the cursor has not
passed and, above the cursor, for which the buffer has room. The other arrivals are
counted and forgotten.

An accepted arrival is emitted at once, or it is buffered. It stays in the buffer
until it is emitted, unless another arrival is accepted at its index and displaces
it. So over a whole run the acceptances of an observation are its emissions, its
place in the buffer and its displacements (`copies_conserved`), and after the last
flush the buffers are empty.
-/

set_option autoImplicit false

namespace SenderAnalysis.PohSupervisor

open Std (ExtTreeMap)
open OrderedMap

/-- The supervisor emits or buffers an observation that arrives now. -/
def Accepts (cfg : Config) (slot : PohSlot) (observation : EntryObservation) : Prop :=
  slot.isSealed = false ∧ slot.nextExpectedIdx ≤ observation.entryIndex ∧
    WithinCapacity cfg slot observation

instance (cfg : Config) (slot : PohSlot) (observation : EntryObservation) :
    Decidable (Accepts cfg slot observation) :=
  inferInstanceAs (Decidable (_ ∧ _ ∧ (_ → _)))

/-- The observation is in the buffer, at its index. -/
def Buffers (slot : PohSlot) (observation : EntryObservation) : Prop :=
  (slot.pending[observation.entryIndex]?.map fun entry => entry.merged.observation) =
    some observation

instance (slot : PohSlot) (observation : EntryObservation) :
    Decidable (Buffers slot observation) :=
  inferInstanceAs (Decidable (_ = _))

/-- How often an observation is in the buffer. -/
def bufferedCopies (observation : EntryObservation) (slot : PohSlot) : Nat :=
  if Buffers slot observation then 1 else 0

/-- How often an observation was emitted. -/
def emittedCopies (observation : EntryObservation) (events : List OrderedEvent) : Nat :=
  (emittedEntries events).countP fun e => decide (e.observation = observation)

@[simp] theorem emittedCopies_append (observation : EntryObservation)
    (first second : List OrderedEvent) :
    emittedCopies observation (first ++ second) =
      emittedCopies observation first + emittedCopies observation second := by
  simp [emittedCopies]

@[simp] theorem emittedCopies_nil (observation : EntryObservation) :
    emittedCopies observation [] = 0 := rfl

theorem emittedCopies_entryEvent (observation : EntryObservation) (slot : PohSlot)
    (merged : MergedEntry) (reordered : Bool) (wait : Nat) :
    emittedCopies observation [entryEvent slot merged reordered wait] =
      if merged.observation = observation then 1 else 0 := by
  by_cases same : merged.observation = observation <;>
    simp [emittedCopies, emittedEntries, entryEvent, OrderedEvent.ordered?, same]

theorem emittedCopies_terminalEvent (observation : EntryObservation) (slotKey : Nat)
    (slot : PohSlot) : emittedCopies observation [terminalEvent slotKey slot] = 0 := by
  unfold terminalEvent
  split <;> rfl

/-- A buffer in place holds an observation only at its index. -/
theorem bufferedCopies_of_empty {slot : PohSlot} (emptied : slot.pending = ∅)
    (observation : EntryObservation) : bufferedCopies observation slot = 0 := by
  simp [bufferedCopies, Buffers, emptied]

/-! ## One slot -/

/-- How often an input of a slot brings an observation that is accepted. -/
def acceptedCopies (cfg : Config) (slot : PohSlot) (observation : EntryObservation) :
    Option SlotInput → Nat
  | some (.arrive merged _) =>
      if merged.observation = observation ∧ Accepts cfg slot observation then 1 else 0
  | some (.advance _) | some (.sealing _) | none => 0

/-- How often an input of a slot displaces an observation from the buffer. -/
def displacedCopies (cfg : Config) (slot : PohSlot) (observation : EntryObservation) :
    Option SlotInput → Nat
  | some (.arrive merged _) =>
      if merged.observation.entryIndex = observation.entryIndex ∧
        Accepts cfg slot merged.observation ∧ Buffers slot observation then 1 else 0
  | some (.advance _) | some (.sealing _) | none => 0

section OneSlot

variable {cfg : Config} {slotKey : Nat} {slot : PohSlot}

/-- An arrival that is not accepted changes nothing. -/
theorem copies_of_not_accepted {merged : MergedEntry} {now : Instant}
    (not : ¬ Accepts cfg slot merged.observation) (observation : EntryObservation) :
    acceptedCopies cfg slot observation (some (.arrive merged now)) = 0 ∧
      displacedCopies cfg slot observation (some (.arrive merged now)) = 0 := by
  constructor
  · refine if_neg ?_
    rintro ⟨rfl, accepted⟩
    exact not accepted
  · exact if_neg fun facts => not facts.2.1

/-- An arrival at the cursor is emitted, and it displaces nothing: nothing is buffered there. -/
theorem copies_emit {merged : MergedEntry} {now : Instant} (opened : slot.isSealed = false)
    (here : merged.observation.entryIndex = slot.nextExpectedIdx)
    (quiet : CursorStrictlyBelow slot) (observation : EntryObservation) :
    emittedCopies observation (sent (emitAtCursor slot merged now).2) +
        bufferedCopies observation (emitAtCursor slot merged now).1 +
        displacedCopies cfg slot observation (some (.arrive merged now)) =
      bufferedCopies observation slot +
        acceptedCopies cfg slot observation (some (.arrive merged now)) := by
  have accepted : Accepts cfg slot merged.observation := by
    refine ⟨opened, UInt32.le_of_eq here.symm, fun above => ?_⟩
    exact absurd (here ▸ above) (UInt32.lt_irrefl _)
  have kept : displacedCopies cfg slot observation (some (.arrive merged now)) = 0 := by
    refine if_neg ?_
    rintro ⟨index, _, buffered⟩
    obtain ⟨entry, present, _⟩ := Option.map_eq_some_iff.mp buffered
    have member := ExtTreeMap.mem_iff_isSome_getElem?.mpr (Option.isSome_of_eq_some present)
    have above := quiet _ member
    rw [← index, here] at above
    exact UInt32.lt_irrefl _ above
  have event : sent (emitAtCursor slot merged now).2 =
      [entryEvent (slot.noted now) merged false 0] := sent_emitEntry _ _ _ _ _
  have same : bufferedCopies observation (emitAtCursor slot merged now).1 =
      bufferedCopies observation slot := rfl
  rw [event, emittedCopies_entryEvent, kept, same, acceptedCopies]
  by_cases own : merged.observation = observation
  · rw [if_pos own, if_pos ⟨own, own ▸ accepted⟩]
    omega
  · rw [if_neg own, if_neg fun facts => own facts.1]
    omega

/-- An arrival above the cursor takes the place of what its index held. -/
theorem copies_buffer {merged : MergedEntry} {now : Instant}
    (accepted : Accepts cfg slot merged.observation) (observation : EntryObservation) :
    bufferedCopies observation { slot.noted now with
          pending := slot.pending.insert merged.observation.entryIndex ⟨merged, now⟩ } +
        displacedCopies cfg slot observation (some (.arrive merged now)) =
      bufferedCopies observation slot +
        acceptedCopies cfg slot observation (some (.arrive merged now)) := by
  simp only [acceptedCopies, displacedCopies, bufferedCopies, Buffers, ExtTreeMap.getElem?_insert]
  by_cases index : merged.observation.entryIndex = observation.entryIndex
  · by_cases own : merged.observation = observation
    · subst own
      simp [accepted]
      omega
    · simp [index, own, accepted]
  · have own : merged.observation ≠ observation := fun same => index (by rw [same])
    have apart : ¬ compare merged.observation.entryIndex observation.entryIndex = .eq :=
      fun same => index (Std.LawfulEqOrd.eq_of_compare same)
    simp [index, own, apart]

/-- What leaves the buffer at the cursor is emitted. -/
theorem copies_pop {now : Instant} {entry : PendingEntry} (placed : Placed slotKey slot)
    (found : firstEntry slot.pending = some (slot.nextExpectedIdx, entry))
    (observation : EntryObservation) :
    emittedCopies observation (sent (emitPending now slot slot.nextExpectedIdx entry).2) +
        bufferedCopies observation (emitPending now slot slot.nextExpectedIdx entry).1 =
      bufferedCopies observation slot := by
  have present := getElem?_of_firstEntry found
  rw [sent_emitPending, emittedCopies_entryEvent]
  simp only [bufferedCopies, Buffers, emitPending_pending, ExtTreeMap.getElem?_erase]
  by_cases own : entry.merged.observation = observation
  · have here : observation.entryIndex = slot.nextExpectedIdx := by
      rw [← own, (placed _ _ present).2]
    simp [own, here, present]
  · by_cases here : slot.nextExpectedIdx = observation.entryIndex
    · rw [here] at present
      simp [own, here, present]
    · have apart : ¬ compare slot.nextExpectedIdx observation.entryIndex = .eq :=
        fun same => here (Std.LawfulEqOrd.eq_of_compare same)
      simp [own, apart]

/-- **A move conserves the copies of every observation.** -/
theorem Move.copies {label : Option SlotInput} {result : PohSlot × List SupervisorEffect}
    (move : Move cfg slotKey slot label result) (placed : Placed slotKey slot)
    (quiet : label.isSome → CursorStrictlyBelow slot) (observation : EntryObservation) :
    emittedCopies observation (sent result.2) + bufferedCopies observation result.1 +
        displacedCopies cfg slot observation label =
      bufferedCopies observation slot + acceptedCopies cfg slot observation label := by
  cases move with
  | afterSeal merged now closed =>
    have not : ¬ Accepts cfg slot merged.observation := fun accepted => by
      simp [accepted.1] at closed
    obtain ⟨none, kept⟩ := @copies_of_not_accepted cfg slot merged now not observation
    simp [none, kept]
  | refuse merged now opened above full =>
    have not : ¬ Accepts cfg slot merged.observation := fun accepted =>
      Nat.not_lt.mpr full (accepted.2.2 above)
    obtain ⟨none, kept⟩ := @copies_of_not_accepted cfg slot merged now not observation
    have same : bufferedCopies observation (slot.noted now) = bufferedCopies observation slot := rfl
    simp [none, kept, same]
  | late merged now opened below =>
    have not : ¬ Accepts cfg slot merged.observation := fun accepted =>
      UInt32.lt_irrefl _ (UInt32.lt_of_lt_of_le below accepted.2.1)
    obtain ⟨none, kept⟩ := @copies_of_not_accepted cfg slot merged now not observation
    have same : bufferedCopies observation
        { slot.noted now with tickIdx := countTick slot.tickIdx merged.observation } =
        bufferedCopies observation slot := rfl
    simp [none, kept, same]
  | advance | sealing => simp [acceptedCopies, displacedCopies]
  | emit merged now opened here => exact copies_emit opened here (quiet rfl) observation
  | buffer merged now opened above room =>
    have accepted : Accepts cfg slot merged.observation :=
      ⟨opened, UInt32.le_of_lt above, fun _ => room⟩
    simp only [sent_fetchMax, sent_nil, emittedCopies_nil, Nat.zero_add]
    exact copies_buffer accepted observation
  | pop now entry opened found =>
    exact copies_pop placed found observation
  | skip now first entry opened found gap =>
    obtain ⟨waited, event⟩ := sent_emitMissing cfg slotKey slot now
    have silent :
        emittedCopies observation [.missing ⟨slotKey, slot.nextExpectedIdx, waited⟩] = 0 := rfl
    have same : bufferedCopies observation (emitMissing cfg slotKey now slot).1 =
        bufferedCopies observation slot := rfl
    simp [event, silent, same, acceptedCopies, displacedCopies]
  | close now opened emptied =>
    have same : bufferedCopies observation { slot with isSealed := true } =
        bufferedCopies observation slot := rfl
    simp [emittedCopies_terminalEvent, same, acceptedCopies, displacedCopies]

theorem Moves.copies {start : PohSlot} {effects : List SupervisorEffect}
    (moves : Moves cfg slotKey start slot effects) (placed : Placed slotKey start)
    (observation : EntryObservation) :
    emittedCopies observation (sent effects) + bufferedCopies observation slot =
      bufferedCopies observation start := by
  induction moves with
  | done => simp
  | snoc earlier below move ih =>
    have conserved := move.copies (earlier.placed placed).1 (by simp) observation
    simp only [acceptedCopies, displacedCopies, Nat.add_zero] at conserved
    rw [sent_append, emittedCopies_append]
    omega

/-- **An input of a slot conserves the copies of every observation.** -/
theorem slotStep_copies (settled : Settled slotKey slot) {input : SlotInput}
    (belongs : input.BelongsTo slotKey) (observation : EntryObservation) :
    emittedCopies observation (sent (slotStep cfg slotKey slot input).2) +
        bufferedCopies observation (slotStep cfg slotKey slot input).1 +
        displacedCopies cfg slot observation (some input) =
      bufferedCopies observation slot + acceptedCopies cfg slot observation (some input) := by
  obtain ⟨first, more, move, moves, effects⟩ :=
    (@slotStep_consumed cfg slotKey slot settled.quiet input).split
  have begun := move.copies settled.placed (fun _ => settled.quiet) observation
  have placed := (move.placed settled.placed (by rintro _ ⟨⟩; exact belongs)).1
  have continued := moves.copies placed observation
  rw [effects, sent_append, emittedCopies_append]
  omega

/-- Inputs that bring no entry accept and displace nothing. -/
theorem sweepInputs_copies (settled : Settled slotKey slot) (now : Instant) (maxSlot : Nat)
    (observation : EntryObservation) :
    emittedCopies observation
        (sent (runAll (slotStep cfg slotKey) slot (sweepInputs cfg now maxSlot slotKey)).2) +
      bufferedCopies observation
        (runAll (slotStep cfg slotKey) slot (sweepInputs cfg now maxSlot slotKey)).1 =
      bufferedCopies observation slot := by
  have advanced := @slotStep_copies cfg _ _ settled _ (belongsTo_advance slotKey now) observation
  have settled' := @slotStep_settled cfg _ _ _ settled (belongsTo_advance slotKey now)
  have ended := @slotStep_copies cfg _ _ settled' _ (belongsTo_sealing slotKey now) observation
  simp only [acceptedCopies, displacedCopies, Nat.add_zero] at advanced ended
  unfold sweepInputs
  split
  · simp only [runAll_cons, runAll_nil, List.append_nil, sent_append, emittedCopies_append]
    omega
  · simpa [runAll_cons] using advanced

end OneSlot

/-- An emitted entry carries the slot of its observation. -/
theorem slotRun_entry_slot (cfg : Config) (slotKey : Nat) (own : List SlotInput) :
    ∀ e, OrderedEvent.entry e ∈ sent (slotRun cfg slotKey own).2 → e.slot = e.observation.slot := by
  refine @slotRun_induction cfg slotKey
    (fun _ _ effects => ∀ e, OrderedEvent.entry e ∈ sent effects → e.slot = e.observation.slot)
    (by simp) ?_ own
  intro past slot effects label result holds _ _ move e member
  rw [sent_append] at member
  rcases List.mem_append.mp member with earlier | new
  · exact holds e earlier
  · cases move with
    | afterSeal | refuse | late | buffer | advance | sealing => simp at new
    | emit merged now opened here =>
      have event : OrderedEvent.entry e = entryEvent (slot.noted now) merged false 0 := by
        simpa [emitAtCursor] using new
      cases event
      rfl
    | pop now entry opened found =>
      rw [sent_emitPending, List.mem_singleton] at new
      cases new
      rfl
    | skip now first entry opened found gap =>
      obtain ⟨waited, event⟩ := sent_emitMissing cfg slotKey slot now
      simp [event] at new
    | close now opened emptied =>
      rw [sent_closingEffects, List.mem_singleton] at new
      unfold terminalEvent at new
      split at new <;> cases new

/-! ## Whole runs -/

section Runs

variable (cfg : Config) (observation : EntryObservation)

/-- An input brings the observation, and it is accepted. -/
def Accepted (past : List Input) : Input → Prop
  | .receive merged _ =>
      merged.observation = observation ∧
        Accepts cfg (stateFound cfg observation.slot past) observation
  | .sweep _ | .shutdown _ => False

/-- An input brings an entry that takes the observation's place in the buffer. -/
def Displaced (past : List Input) : Input → Prop
  | .receive merged _ =>
      merged.observation.slot = observation.slot ∧
        merged.observation.entryIndex = observation.entryIndex ∧
        Accepts cfg (stateFound cfg observation.slot past) merged.observation ∧
        Buffers (stateFound cfg observation.slot past) observation
  | .sweep _ | .shutdown _ => False

instance (past : List Input) (input : Input) : Decidable (Accepted cfg observation past input) :=
  match input with
  | .receive _ _ => inferInstanceAs (Decidable (_ ∧ _))
  | .sweep _ | .shutdown _ => inferInstanceAs (Decidable False)

instance (past : List Input) (input : Input) : Decidable (Displaced cfg observation past input) :=
  match input with
  | .receive _ _ => inferInstanceAs (Decidable (_ ∧ _ ∧ _ ∧ _))
  | .sweep _ | .shutdown _ => inferInstanceAs (Decidable False)

/-- An input that brings no entry accepts and displaces nothing. -/
theorem fates_of_silent {past : List Input} {input : Input} (silent : input.merged? = none) :
    ¬ Accepted cfg observation past input ∧ ¬ Displaced cfg observation past input := by
  cases input with
  | receive merged now => cases silent
  | sweep | shutdown => exact ⟨id, id⟩

theorem entry_slot {inputs : List Input} {e : OrderedEntry}
    (emitted : .entry e ∈ events cfg inputs) : e.slot = e.observation.slot := by
  have listed : OrderedEvent.entry e ∈ eventsAt e.slot (run cfg inputs).2 :=
    List.mem_filter.mpr ⟨emitted, by simp [OrderedEvent.slot]⟩
  rw [(tracked_run cfg e.slot inputs).emitted] at listed
  obtain ⟨own, _, member⟩ := List.mem_flatMap.mp listed
  exact slotRun_entry_slot cfg e.slot own e member

/-- An observation is emitted exactly when it has been emitted for its slot. -/
theorem emittedCopies_pos {inputs : List Input} :
    0 < emittedCopies observation (eventsAt observation.slot (run cfg inputs).2) ↔
      ∃ e, .entry e ∈ events cfg inputs ∧ e.observation = observation := by
  rw [emittedCopies, List.countP_pos_iff]
  constructor
  · rintro ⟨e, member, same⟩
    exact ⟨e, List.mem_of_mem_filter (mem_emittedEntries.mp member), of_decide_eq_true same⟩
  · rintro ⟨e, emitted, rfl⟩
    have slot := entry_slot cfg emitted
    refine ⟨e, mem_emittedEntries.mpr (List.mem_filter.mpr ⟨emitted, ?_⟩), by simp⟩
    simp [OrderedEvent.slot, slot]

theorem bufferedCopies_initial : bufferedCopies observation {} = 0 :=
  bufferedCopies_of_empty rfl observation

/-- A sweep emits what it takes from the buffer. -/
theorem sweep_copies (past : List Input) (now : Instant) :
    emittedCopies observation
        (eventsAt observation.slot (sweep cfg (run cfg past).1 now).2) +
      bufferedCopies observation
        ((sweep cfg (run cfg past).1 now).1.slots[observation.slot]?.getD {}) =
      bufferedCopies observation (stateFound cfg observation.slot past) := by
  have settled := run_settled cfg past
  rw [eventsAt_sweep cfg _ observation.slot settled, sweep_getElem?, stateFound]
  cases found : (run cfg past).1.slots[observation.slot]? with
  | none => simp
  | some slot =>
    have conserved := @sweepInputs_copies cfg _ _ (settled _ slot found) now
      (run cfg past).1.maxSlot observation
    simp only [Option.map_some, Option.getD_some]
    rw [Option.filter_some]
    split
    · exact conserved
    · next dropped =>
      -- only a sealed slot is dropped, and it buffers nothing
      have held := (tracked_run cfg observation.slot past).held
      rw [found, eq_comm, Option.map_eq_some_iff] at held
      obtain ⟨own, _, same⟩ := held
      have closed : (runAll (slotStep cfg observation.slot) slot
          (sweepInputs cfg now (run cfg past).1.maxSlot observation.slot)).1.isSealed = true := by
        simp only [kept, Bool.or_eq_true, Bool.not_eq_true', not_or, Bool.not_eq_false] at dropped
        exact dropped.2
      have empty := slotRun_emptied cfg observation.slot
        (own ++ sweepInputs cfg now (run cfg past).1.maxSlot observation.slot)
      rw [slotRun_append, same] at empty
      rw [bufferedCopies_of_empty (empty closed)] at conserved
      rw [Option.getD_none, bufferedCopies_initial]
      exact conserved

/-- **An input of the supervisor conserves the copies of every observation.** -/
theorem step_copies (past : List Input) (input : Input) :
    emittedCopies observation
        (eventsAt observation.slot (step cfg (run cfg past).1 input).2) +
      bufferedCopies observation (stateFound cfg observation.slot (past ++ [input])) +
      (if Displaced cfg observation past input then 1 else 0) =
      bufferedCopies observation (stateFound cfg observation.slot past) +
        if Accepted cfg observation past input then 1 else 0 := by
  have settled := run_settled cfg past
  have stepped : stateFound cfg observation.slot (past ++ [input]) =
      (step cfg (run cfg past).1 input).1.slots[observation.slot]?.getD {} := by
    rw [stateFound, run, runAll_concat]
    rfl
  rw [stepped]
  cases input with
  | receive merged now =>
    simp only [step, receive_getElem?, eventsAt_receive cfg _ observation.slot settled]
    by_cases own : merged.observation.slot = observation.slot
    · have belongs : (SlotInput.arrive merged now).BelongsTo observation.slot := by
        rintro _ _ ⟨⟩
        exact own
      have conserved := @slotStep_copies cfg _ _ (settled_getD observation.slot settled) _ belongs
        observation
      have displaced : (if Displaced cfg observation past (.receive merged now) then 1 else 0) =
          displacedCopies cfg (stateFound cfg observation.slot past) observation
            (some (.arrive merged now)) := if_congr (and_iff_right own) rfl rfl
      have accepted : (if Accepted cfg observation past (.receive merged now) then 1 else 0) =
          acceptedCopies cfg (stateFound cfg observation.slot past) observation
            (some (.arrive merged now)) := if_congr Iff.rfl rfl rfl
      rw [if_pos own, if_pos own, Option.getD_some, displaced, accepted]
      exact conserved
    · have other : merged.observation ≠ observation := fun same => own (by rw [same])
      rw [if_neg own, if_neg own, if_neg fun facts => own facts.1,
        if_neg fun facts => other facts.1]
      simp [stateFound]
  | sweep now =>
    have silent := @fates_of_silent cfg observation past (.sweep now) rfl
    rw [if_neg silent.1, if_neg silent.2]
    exact sweep_copies cfg observation past now
  | shutdown now =>
    have silent := @fates_of_silent cfg observation past (.shutdown now) rfl
    rw [if_neg silent.1, if_neg silent.2]
    have swept := sweep_copies cfg observation past now
    have settled' := sweep_settled cfg _ settled now
    simp only [step, eventsAt_shutdown cfg _ observation.slot settled, shutdown_getElem?,
      emittedCopies_append, Nat.add_zero]
    cases found : (sweep cfg (run cfg past).1 now).1.slots[observation.slot]? with
    | none => simpa [found] using swept
    | some slot =>
      have ended := @slotStep_copies cfg _ _ (settled' _ slot found) _
        (belongsTo_sealing observation.slot now) observation
      simp only [acceptedCopies, displacedCopies, Nat.add_zero] at ended
      rw [found, Option.getD_some] at swept
      simp only [Option.map_some, Option.getD_some]
      omega

/-- **Every acceptance of an observation is an emission, a place in the buffer or a
displacement.** -/
theorem copies_conserved (inputs : List Input) :
    countAfter (Accepted cfg observation) inputs =
      emittedCopies observation (eventsAt observation.slot (run cfg inputs).2) +
        bufferedCopies observation (stateFound cfg observation.slot inputs) +
        countAfter (Displaced cfg observation) inputs := by
  induction inputs using List.reverseRecOn with
  | nil => simp [run, stateFound, countAfter, countAfterFrom, bufferedCopies_initial]
  | append_singleton past input ih =>
    have conserved := step_copies cfg observation past input
    have stepped : (run cfg (past ++ [input])).2 =
        (run cfg past).2 ++ (step cfg (run cfg past).1 input).2 := by
      rw [run, runAll_concat]
      rfl
    rw [countAfter_concat, countAfter_concat, stepped, eventsAt_append, emittedCopies_append]
    omega

/-- After the last flush nothing is buffered. -/
theorem bufferedCopies_shutdown (inputs : List Input) (now : Instant) :
    bufferedCopies observation
      (stateFound cfg observation.slot (inputs ++ [.shutdown now])) = 0 := by
  rw [stateFound]
  cases found : (run cfg (inputs ++ [.shutdown now])).1.slots[observation.slot]? with
  | none => exact bufferedCopies_initial observation
  | some slot =>
    have held := (tracked_run cfg observation.slot (inputs ++ [.shutdown now])).held
    rw [found, eq_comm, Option.map_eq_some_iff] at held
    obtain ⟨own, current, same⟩ := held
    have closed := sealed_of_shutdown cfg observation.slot inputs now
      (List.mem_append_right _ (Option.mem_toList.mpr current))
    exact bufferedCopies_of_empty (same ▸ slotRun_emptied cfg observation.slot own closed) _

/-- **An observation that arrives once is emitted exactly when it is accepted and never
displaced.** -/
theorem emitted_iff (inputs : List Input)
    (once : (received inputs).countP (fun merged =>
      decide (merged.observation = observation)) ≤ 1)
    (now : Instant) :
    (∃ e, .entry e ∈ events cfg (inputs ++ [.shutdown now]) ∧ e.observation = observation) ↔
      (∃ past input rest, inputs = past ++ input :: rest ∧
        Accepted cfg observation past input) ∧
      EachAfter (fun past input => ¬ Displaced cfg observation past input) inputs := by
  have conserved := copies_conserved cfg observation (inputs ++ [.shutdown now])
  have silent := @fates_of_silent cfg observation inputs (.shutdown now) rfl
  have few : countAfter (Accepted cfg observation) inputs ≤ 1 := by
    rw [received, List.countP_filterMap] at once
    refine Nat.le_trans (countAfter_le_countP _ ?_ inputs) once
    intro past input accepted
    cases input with
    | receive merged at' => simpa [Input.merged?] using accepted.1
    | sweep | shutdown => cases accepted
  rw [countAfter_concat, countAfter_concat, bufferedCopies_shutdown, if_neg silent.1,
    if_neg silent.2] at conserved
  rw [← countAfter_pos, ← countAfter_eq_zero, ← emittedCopies_pos]
  omega

end Runs

end SenderAnalysis.PohSupervisor

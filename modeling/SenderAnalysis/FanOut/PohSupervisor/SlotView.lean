import SenderAnalysis.FanOut.PohSupervisor.SlotRuns

/-!
# The supervisor, seen from one slot

The supervisor holds the slots in one map, and its inputs act on all of them. A
move of one slot touches no other slot, and its events carry the slot they belong
to. So an input of the supervisor, seen from one slot, is a list of inputs of that
slot: the arrival for the slot of the entry, and phase A with a seal for a slot
that is due in a sweep.

For each input of the supervisor two lemmas say what it does to one slot: what the
map holds for the slot afterwards, and which events of the slot it emits.
-/

set_option autoImplicit false

namespace SenderAnalysis.PohSupervisor

open Std OrderedMap

/-! ## Events carry the slot they belong to -/

/-- The buffered entries belong to the slot and stand at their own index. -/
def Placed (slotKey : Nat) (slot : PohSlot) : Prop :=
  ∀ (idx : UInt32) (entry : PendingEntry), slot.pending[idx]? = some entry →
    entry.merged.observation.slot = slotKey ∧ entry.merged.observation.entryIndex = idx

theorem initial_placed (slotKey : Nat) : Placed slotKey {} := by
  intro idx entry present
  simp at present

/-- The arrival of an input belongs to the slot. -/
def SlotInput.BelongsTo (slotKey : Nat) (input : SlotInput) : Prop :=
  ∀ merged now, input = .arrive merged now → merged.observation.slot = slotKey

/-- The events of one slot. -/
def eventsAt (slotKey : Nat) (effects : List SupervisorEffect) : List OrderedEvent :=
  (sent effects).filter fun event => event.slot == slotKey

@[simp] theorem eventsAt_nil (slotKey : Nat) : eventsAt slotKey [] = [] := rfl

@[simp] theorem eventsAt_append (slotKey : Nat) (first second : List SupervisorEffect) :
    eventsAt slotKey (first ++ second) = eventsAt slotKey first ++ eventsAt slotKey second := by
  simp [eventsAt]

theorem terminalEvent_slot (slotKey : Nat) (slot : PohSlot) :
    (terminalEvent slotKey slot).slot = slotKey := by
  unfold terminalEvent
  split <;> rfl

/-- A move keeps the buffer in place, and its events carry the slot. -/
theorem Move.placed {cfg : Config} {slotKey : Nat} {slot : PohSlot} {label : Option SlotInput}
    {result : PohSlot × List SupervisorEffect} (move : Move cfg slotKey slot label result)
    (placed : Placed slotKey slot) (belongs : ∀ input, label = some input →
      input.BelongsTo slotKey) :
    Placed slotKey result.1 ∧ ∀ event ∈ sent result.2, event.slot = slotKey := by
  cases move with
  | afterSeal | refuse | late | advance | sealing => exact ⟨placed, by simp⟩
  | emit merged now opened here =>
    refine ⟨placed, ?_⟩
    intro event member
    have same : event = entryEvent (slot.noted now) merged false 0 := by
      simpa [emitAtCursor] using member
    rw [same]
    exact belongs _ rfl merged now rfl
  | buffer merged now opened above room =>
    refine ⟨?_, by simp⟩
    intro idx entry present
    rw [ExtTreeMap.getElem?_insert] at present
    split at present
    · next same =>
      cases present
      exact ⟨belongs _ rfl merged now rfl, compare_eq_iff_eq.mp same⟩
    · exact placed idx entry present
  | pop now entry opened found =>
    refine ⟨?_, ?_⟩
    · intro idx other present
      rw [emitPending_pending, ExtTreeMap.getElem?_erase] at present
      split at present
      · simp at present
      · exact placed idx other present
    · intro event member
      have same : event = entryEvent slot entry.merged true (pendingWait now entry) := by
        simpa using member
      rw [same]
      exact (placed _ _ (getElem?_of_firstEntry found)).1
  | skip now first entry opened found gap =>
    refine ⟨placed, ?_⟩
    obtain ⟨waited, same⟩ := sent_emitMissing cfg slotKey slot now
    intro event member
    rw [same, List.mem_singleton] at member
    rw [member]
    rfl
  | close now opened emptied =>
    refine ⟨placed, ?_⟩
    intro event member
    have same : event = terminalEvent slotKey slot := by simpa using member
    rw [same]
    exact terminalEvent_slot slotKey slot

theorem Moves.placed {cfg : Config} {slotKey : Nat} {start slot : PohSlot}
    {effects : List SupervisorEffect} (moves : Moves cfg slotKey start slot effects)
    (placed : Placed slotKey start) :
    Placed slotKey slot ∧ ∀ event ∈ sent effects, event.slot = slotKey := by
  induction moves with
  | done => exact ⟨placed, by simp⟩
  | snoc earlier below move ih =>
    obtain ⟨now, own⟩ := move.placed ih.1 (by simp)
    refine ⟨now, ?_⟩
    intro event member
    rw [sent_append] at member
    rcases List.mem_append.mp member with before | last
    · exact ih.2 event before
    · exact own event last

/-- What holds of the state of a slot between two inputs. -/
structure Settled (slotKey : Nat) (slot : PohSlot) : Prop where
  quiet : CursorStrictlyBelow slot
  placed : Placed slotKey slot

theorem initial_settled (slotKey : Nat) : Settled slotKey {} :=
  ⟨initial_quiet, initial_placed slotKey⟩

section Steps

variable {cfg : Config} {slotKey : Nat} {slot : PohSlot} {input : SlotInput}

theorem slotStep_placed (settled : Settled slotKey slot) (belongs : input.BelongsTo slotKey) :
    Placed slotKey (slotStep cfg slotKey slot input).1 ∧
      ∀ event ∈ sent (slotStep cfg slotKey slot input).2, event.slot = slotKey := by
  obtain ⟨first, more, move, moves, effects⟩ :=
    (@slotStep_consumed cfg slotKey slot settled.quiet input).split
  obtain ⟨placed, own⟩ := move.placed settled.placed (by rintro _ ⟨⟩; exact belongs)
  obtain ⟨placed', own'⟩ := moves.placed placed
  refine ⟨placed', ?_⟩
  intro event member
  rw [effects, sent_append] at member
  rcases List.mem_append.mp member with before | last
  · exact own event before
  · exact own' event last

theorem slotStep_settled (settled : Settled slotKey slot) (belongs : input.BelongsTo slotKey) :
    Settled slotKey (slotStep cfg slotKey slot input).1 :=
  ⟨(slotStep_consumed settled.quiet input).quiet, (slotStep_placed settled belongs).1⟩

theorem eventsAt_slotStep (settled : Settled slotKey slot) (belongs : input.BelongsTo slotKey) :
    eventsAt slotKey (slotStep cfg slotKey slot input).2 =
      sent (slotStep cfg slotKey slot input).2 := by
  unfold eventsAt
  rw [List.filter_eq_self]
  intro event member
  simpa using (slotStep_placed settled belongs).2 event member

/-- The events of one slot are none of another. -/
theorem eventsAt_slotStep_of_ne {other : Nat} (settled : Settled slotKey slot)
    (belongs : input.BelongsTo slotKey) (different : slotKey ≠ other) :
    eventsAt other (slotStep cfg slotKey slot input).2 = [] := by
  unfold eventsAt
  rw [List.filter_eq_nil_iff]
  intro event member
  have own := (slotStep_placed settled belongs).2 event member
  simp [own, different]

end Steps

theorem belongsTo_advance (slotKey : Nat) (now : Instant) :
    (SlotInput.advance now).BelongsTo slotKey := by
  rintro merged now' ⟨⟩

theorem belongsTo_sealing (slotKey : Nat) (now : Instant) :
    (SlotInput.sealing now).BelongsTo slotKey := by
  rintro merged now' ⟨⟩

/-- **The rule for runs of a slot whose inputs are all acceptable.** The inputs
belong to the slot, so every move also finds the buffered entries in place. -/
theorem incarnation_induction {cfg : Config} {slotKey : Nat}
    {motive : List SlotInput → PohSlot → List SupervisorEffect → Prop}
    {acceptable : SlotInput → Prop}
    (belong : ∀ input, acceptable input → input.BelongsTo slotKey)
    (created : motive [] {} [])
    (preserved : ∀ past slot effects label result, motive past slot effects →
      CursorBelow slot → Placed slotKey slot →
      (∀ input, label = some input → acceptable input ∧
        (slot, effects) = slotRun cfg slotKey past ∧ CursorStrictlyBelow slot) →
      Move cfg slotKey slot label result →
      motive (past ++ label.toList) result.1 (effects ++ result.2))
    (inputs : List SlotInput) (accepted : ∀ input ∈ inputs, acceptable input) :
    motive inputs (slotRun cfg slotKey inputs).1 (slotRun cfg slotKey inputs).2 := by
  have both := @slotRun_induction cfg slotKey
    (fun past slot effects => (∀ input ∈ past, acceptable input) →
      Placed slotKey slot ∧ motive past slot effects)
    (fun _ => ⟨initial_placed slotKey, created⟩) ?_ inputs accepted
  · exact both.2
  · intro past slot effects label result earlier below quiet move fine
    obtain ⟨placed, holds⟩ := earlier fun input member => fine input (List.mem_append_left _ member)
    have labelFine : ∀ input, label = some input → acceptable input := by
      rintro input rfl
      exact fine input (by simp)
    refine ⟨(move.placed placed fun input same => belong input (labelFine input same)).1, ?_⟩
    refine preserved past slot effects label result holds below placed ?_ move
    intro input same
    exact ⟨labelFine input same, quiet (by simp [same])⟩

/-! ## The phases of a sweep, seen from one slot -/

/-- Every slot of the map is settled. -/
def AllSettled (slots : ExtTreeMap Nat PohSlot) : Prop :=
  ∀ (slotKey : Nat) (slot : PohSlot), slots[slotKey]? = some slot → Settled slotKey slot

theorem eventsAt_eq_filterMap (slotKey : Nat) (effects : List SupervisorEffect) :
    eventsAt slotKey effects =
      effects.filterMap fun effect =>
        effect.message?.filter fun event => event.slot == slotKey := by
  rw [eventsAt, sent, List.filter_filterMap]

section Phases

variable (cfg : Config) (now : Instant) (maxSlot : Nat) (slots : ExtTreeMap Nat PohSlot)
  (slotKey : Nat)

theorem sweepGaps_getElem? :
    (sweepGaps cfg now slots).1[slotKey]? =
      slots[slotKey]?.map fun slot => (advanceGaps cfg now slotKey slot).1 :=
  runAll_updateAt_keys_getElem? (advanceGaps cfg now) slots slotKey

theorem eventsAt_sweepGaps (settled : AllSettled slots) :
    eventsAt slotKey (sweepGaps cfg now slots).2 =
      (slots[slotKey]?.map fun slot => eventsAt slotKey (advanceGaps cfg now slotKey slot).2).getD
        [] := by
  simp only [eventsAt_eq_filterMap]
  refine runAll_updateAt_keys_filterMap (advanceGaps cfg now) _ slots slotKey ?_
  intro other different slot present
  rw [← eventsAt_eq_filterMap]
  exact eventsAt_slotStep_of_ne (settled other slot present) (belongsTo_advance other now) different

/-- The slots that phase B of a sweep seals. -/
theorem mem_toSeal {slotKey : Nat} :
    slotKey ∈ (slots.toList.filter fun entry =>
      due cfg maxSlot entry.1 && !entry.2.isSealed).map Prod.fst ↔
    ∃ slot, slots[slotKey]? = some slot ∧ due cfg maxSlot slotKey = true ∧
      slot.isSealed = false := by
  simp only [List.mem_map, List.mem_filter, Prod.exists, ExtTreeMap.mem_toList_iff_getElem?_eq_some,
    Bool.and_eq_true, Bool.not_eq_true']
  constructor
  · rintro ⟨key, slot, ⟨present, ripe, opened⟩, rfl⟩
    exact ⟨slot, present, ripe, opened⟩
  · rintro ⟨slot, present, ripe, opened⟩
    exact ⟨slotKey, slot, ⟨present, ripe, opened⟩, rfl⟩

theorem nodup_toSeal :
    ((slots.toList.filter fun entry =>
      due cfg maxSlot entry.1 && !entry.2.isSealed).map Prod.fst).Nodup := by
  have keys : (slots.toList.map Prod.fst).Nodup := by
    rw [ExtTreeMap.map_fst_toList_eq_keys]
    exact nodup_keys slots
  exact keys.sublist (List.filter_sublist.map Prod.fst)

theorem sweepSeal_getElem? :
    (sweepSeal cfg maxSlot now slots).1[slotKey]? =
      slots[slotKey]?.map fun slot =>
        if due cfg maxSlot slotKey then (sealState cfg now slotKey slot).1 else slot := by
  unfold sweepSeal sealSlot
  rw [runAll_updateAt_getElem? (sealState cfg now) (nodup_toSeal cfg maxSlot slots)]
  simp only [mem_toSeal]
  cases present : slots[slotKey]? with
  | none => simp
  | some slot =>
    cases ripe : due cfg maxSlot slotKey <;> cases sealing : slot.isSealed <;>
      simp [sealing, sealState_closed]

theorem eventsAt_sweepSeal (settled : AllSettled slots) :
    eventsAt slotKey (sweepSeal cfg maxSlot now slots).2 =
      (slots[slotKey]?.map fun slot =>
        if due cfg maxSlot slotKey then eventsAt slotKey (sealState cfg now slotKey slot).2
        else []).getD [] := by
  unfold sweepSeal sealSlot
  simp only [eventsAt_eq_filterMap]
  rw [runAll_updateAt_filterMap (sealState cfg now) _ (nodup_toSeal cfg maxSlot slots) slots
    slotKey]
  · simp only [mem_toSeal]
    cases present : slots[slotKey]? with
    | none => simp
    | some slot =>
      cases ripe : due cfg maxSlot slotKey <;> cases sealing : slot.isSealed <;>
        simp [sealing, sealState_closed]
  · intro other _ different slot present
    rw [← eventsAt_eq_filterMap]
    exact eventsAt_slotStep_of_ne (settled other slot present) (belongsTo_sealing other now)
      different

/-- Phase C of a sweep keeps a slot. -/
def kept (slotKey : Nat) (slot : PohSlot) : Bool :=
  slotKey > maxSlot - (cfg.slotSealLagSlots + 10) || !slot.isSealed

theorem sweepDrop_getElem? :
    (sweepDrop cfg maxSlot slots)[slotKey]? = slots[slotKey]?.filter (kept cfg maxSlot slotKey) :=
  ExtTreeMap.getElem?_filter'

/-- The inputs of one slot in a sweep. -/
def sweepInputs : List SlotInput :=
  .advance now :: if due cfg maxSlot slotKey then [.sealing now] else []

theorem sweepInputs_belongTo {input : SlotInput}
    (member : input ∈ sweepInputs cfg now maxSlot slotKey) : input.BelongsTo slotKey := by
  unfold sweepInputs at member
  rcases List.mem_cons.mp member with same | later
  · exact same ▸ belongsTo_advance slotKey now
  · split at later
    · rw [List.mem_singleton] at later
      exact later ▸ belongsTo_sealing slotKey now
    · simp at later

theorem sweepGaps_settled (settled : AllSettled slots) :
    AllSettled (sweepGaps cfg now slots).1 := by
  intro key slot present
  rw [sweepGaps_getElem?, Option.map_eq_some_iff] at present
  obtain ⟨before, found, same⟩ := present
  rw [← same]
  exact @slotStep_settled cfg _ _ _ (settled key before found) (belongsTo_advance key now)

end Phases

/-! ## The inputs of the supervisor, seen from one slot -/

section Inputs

variable (cfg : Config) (state : State) (slotKey : Nat)

theorem runAll_settled {slot : PohSlot} {inputs : List SlotInput} (settled : Settled slotKey slot)
    (belong : ∀ input ∈ inputs, input.BelongsTo slotKey) :
    Settled slotKey (runAll (slotStep cfg slotKey) slot inputs).1 := by
  induction inputs generalizing slot with
  | nil => exact settled
  | cons input rest ih =>
    have next := @slotStep_settled cfg _ _ _ settled (belong input (List.mem_cons_self ..))
    exact ih next fun later member => belong later (List.mem_cons_of_mem _ member)

theorem eventsAt_runAll {slot : PohSlot} {inputs : List SlotInput} (settled : Settled slotKey slot)
    (belong : ∀ input ∈ inputs, input.BelongsTo slotKey) :
    eventsAt slotKey (runAll (slotStep cfg slotKey) slot inputs).2 =
      sent (runAll (slotStep cfg slotKey) slot inputs).2 := by
  induction inputs generalizing slot with
  | nil => rfl
  | cons input rest ih =>
    have own := belong input (List.mem_cons_self ..)
    have next := @slotStep_settled cfg _ _ _ settled own
    rw [runAll_cons, eventsAt_append, sent_append, eventsAt_slotStep settled own,
      ih next fun later member => belong later (List.mem_cons_of_mem _ member)]

theorem receive_getElem? (merged : MergedEntry) (now : Instant) :
    (receive cfg state merged now).1.slots[slotKey]? =
      if merged.observation.slot = slotKey then
        some (slotStep cfg slotKey (state.slots[slotKey]?.getD {}) (.arrive merged now)).1
      else state.slots[slotKey]? := by
  by_cases same : merged.observation.slot = slotKey
  · subst same
    simp [receive, process, slotStep]
  · simp [receive, process, ExtTreeMap.getElem?_insert, same]

theorem settled_getD {slots : ExtTreeMap Nat PohSlot} (settled : AllSettled slots) :
    Settled slotKey (slots[slotKey]?.getD {}) := by
  cases present : slots[slotKey]? with
  | none => exact initial_settled slotKey
  | some slot => exact settled slotKey slot present

theorem eventsAt_receive (settled : AllSettled state.slots) (merged : MergedEntry)
    (now : Instant) :
    eventsAt slotKey (receive cfg state merged now).2 =
      if merged.observation.slot = slotKey then
        sent (slotStep cfg slotKey (state.slots[slotKey]?.getD {}) (.arrive merged now)).2
      else [] := by
  have belongs : (SlotInput.arrive merged now).BelongsTo merged.observation.slot := by
    rintro _ _ ⟨⟩
    rfl
  have own := settled_getD merged.observation.slot settled
  by_cases same : merged.observation.slot = slotKey
  · subst same
    rw [if_pos rfl, ← eventsAt_slotStep own belongs]
    rfl
  · rw [if_neg same]
    exact @eventsAt_slotStep_of_ne cfg _ _ _ _ own belongs same

theorem sweep_getElem? (now : Instant) :
    (sweep cfg state now).1.slots[slotKey]? =
      (state.slots[slotKey]?.map fun slot =>
        (runAll (slotStep cfg slotKey) slot (sweepInputs cfg now state.maxSlot slotKey)).1).filter
        (kept cfg state.maxSlot slotKey) := by
  simp only [sweep, sweepDrop_getElem?, sweepSeal_getElem?, sweepGaps_getElem?, Option.map_map,
    sweepInputs]
  split <;> rfl

theorem eventsAt_sweep (settled : AllSettled state.slots) (now : Instant) :
    eventsAt slotKey (sweep cfg state now).2 =
      (state.slots[slotKey]?.map fun slot =>
        sent (runAll (slotStep cfg slotKey) slot
          (sweepInputs cfg now state.maxSlot slotKey)).2).getD [] := by
  have advanced := sweepGaps_settled cfg now state.slots settled
  simp only [sweep, eventsAt_append, eventsAt_sweepGaps cfg now state.slots slotKey settled,
    eventsAt_sweepSeal cfg now state.maxSlot _ slotKey advanced, sweepGaps_getElem?]
  cases present : state.slots[slotKey]? with
  | none => rfl
  | some slot =>
    have own := settled slotKey slot present
    simp only [Option.map_some, Option.getD_some]
    rw [← eventsAt_runAll cfg slotKey own fun input => sweepInputs_belongTo cfg now _ slotKey]
    unfold sweepInputs
    split <;> simp [runAll_cons, slotStep]

theorem sweep_settled (settled : AllSettled state.slots) (now : Instant) :
    AllSettled (sweep cfg state now).1.slots := by
  intro key slot present
  rw [sweep_getElem?, Option.filter_eq_some_iff, Option.map_eq_some_iff] at present
  obtain ⟨⟨before, found, same⟩, _⟩ := present
  rw [← same]
  exact runAll_settled cfg key (settled key before found)
    fun input => sweepInputs_belongTo cfg now _ key

theorem shutdown_getElem? (now : Instant) :
    (shutdown cfg state now).1.slots[slotKey]? =
      (sweep cfg state now).1.slots[slotKey]?.map fun slot =>
        (slotStep cfg slotKey slot (.sealing now)).1 :=
  runAll_updateAt_keys_getElem? (sealState cfg now) _ slotKey

theorem eventsAt_shutdown (settled : AllSettled state.slots) (now : Instant) :
    eventsAt slotKey (shutdown cfg state now).2 =
      eventsAt slotKey (sweep cfg state now).2 ++
        ((sweep cfg state now).1.slots[slotKey]?.map fun slot =>
          sent (slotStep cfg slotKey slot (.sealing now)).2).getD [] := by
  have swept := sweep_settled cfg state settled now
  have ended : eventsAt slotKey (runAll (sealSlot cfg now) (sweep cfg state now).1.slots
      (sweep cfg state now).1.slots.keys).2 =
      ((sweep cfg state now).1.slots[slotKey]?.map fun slot =>
        eventsAt slotKey (sealState cfg now slotKey slot).2).getD [] := by
    simp only [eventsAt_eq_filterMap]
    refine runAll_updateAt_keys_filterMap (sealState cfg now) _ _ slotKey ?_
    intro other different slot present
    rw [← eventsAt_eq_filterMap]
    exact eventsAt_slotStep_of_ne (swept other slot present) (belongsTo_sealing other now)
      different
  rw [shutdown, eventsAt_append, ended]
  cases present : (sweep cfg state now).1.slots[slotKey]? with
  | none => rfl
  | some slot =>
    have own := @eventsAt_slotStep cfg _ _ _ (swept slotKey slot present)
      (belongsTo_sealing slotKey now)
    simp only [Option.map_some, Option.getD_some]
    rw [← own]
    rfl

/-- **Every input leaves every slot settled.** -/
theorem step_settled (settled : AllSettled state.slots) (input : Input) :
    AllSettled (step cfg state input).1.slots := by
  cases input with
  | receive merged now =>
    intro key slot present
    rw [step, receive_getElem?] at present
    split at present
    · next same =>
      cases present
      refine slotStep_settled (settled_getD key settled) ?_
      rintro _ _ ⟨⟩
      exact same
    · exact settled key slot present
  | sweep now => exact sweep_settled cfg state settled now
  | shutdown now =>
    intro key slot present
    rw [step, shutdown_getElem?, Option.map_eq_some_iff] at present
    obtain ⟨before, found, same⟩ := present
    rw [← same]
    exact slotStep_settled (sweep_settled cfg state settled now key before found)
      (belongsTo_sealing key now)

theorem run_settled (inputs : List Input) : AllSettled (run cfg inputs).1.slots := by
  refine @runAll_invariant _ _ _ (step cfg) (fun state => AllSettled state.slots)
    (fun state input settled => step_settled cfg state settled input) {} ?_ inputs
  intro key slot present
  simp at present

end Inputs

end SenderAnalysis.PohSupervisor

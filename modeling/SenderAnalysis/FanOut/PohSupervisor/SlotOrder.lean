import SenderAnalysis.FanOut.PohSupervisor.ArrivalFates
import SenderAnalysis.FanOut.PohSupervisor.SweepGaps

/-!
# When entries come in slot order

Every slot has a cursor and a buffer of its own, and nothing in the supervisor waits
for an earlier slot. So the entries of a run come in slot order only when the inputs
see to it. `slotsInOrder_iff` says how: an arrival at the cursor is of a slot that is
not below a slot that has emitted, and a sweep opens gaps and flushes buffers of such
slots only.

What a sweep emits for a slot can be told from the state before. It opens the gaps when
the first buffered entry has waited long enough (`GapExpires`). Something is then left
for the flush exactly when some stretch of the buffer begins with an entry that has
not waited long enough (`HoldsBack`).
-/

set_option autoImplicit false

namespace SenderAnalysis.PohSupervisor

open Std (ExtTreeMap)
open OrderedMap

/-- An entry is among the events. -/
def EmitsEntry (effects : List SupervisorEffect) : Prop := emittedEntries (sent effects) ≠ []

/-- The first buffered entry of an open slot has waited long enough for its gap to be
opened. -/
def GapExpires (cfg : Config) (now : Instant) (slot : PohSlot) : Prop :=
  slot.isSealed = false ∧ ∃ first entry, firstEntry slot.pending = some (first, entry) ∧
    cfg.entryTimeout ≤ saturatingDurationSince now entry.bufferedAt

instance (cfg : Config) (now : Instant) (slot : PohSlot) : Decidable (GapExpires cfg now slot) :=
  decidable_of_iff
    (slot.isSealed = false ∧ ∃ entry ∈ firstEntry slot.pending,
      cfg.entryTimeout ≤ saturatingDurationSince now entry.2.bufferedAt)
    (and_congr_right' ⟨fun ⟨(first, entry), found, late⟩ => ⟨first, entry, found, late⟩,
      fun ⟨first, entry, found, late⟩ => ⟨(first, entry), found, late⟩⟩)

/-! ## What a sweep emits for one slot -/

section OneSlot

variable {cfg : Config} {slotKey : Nat} {start slot : PohSlot} {now : Instant}

theorem emitsEntry_iff {effects : List SupervisorEffect} :
    EmitsEntry effects ↔ ∃ e, OrderedEvent.entry e ∈ sent effects := by
  rw [EmitsEntry, ← List.isEmpty_eq_false_iff, List.isEmpty_eq_false_iff_exists_mem]
  simp only [mem_emittedEntries]

theorem emitsEntry_of_copies {effects : List SupervisorEffect} {observation : EntryObservation}
    (copies : 0 < emittedCopies observation (sent effects)) : EmitsEntry effects := by
  intro none
  rw [emittedCopies, none] at copies
  exact Nat.lt_irrefl 0 copies

/-- **Phase A of a sweep emits an entry of a slot exactly when its first gap expires.** -/
theorem emits_advanceGaps (settled : Settled slotKey slot) :
    EmitsEntry (advanceGaps cfg now slotKey slot).2 ↔ GapExpires cfg now slot := by
  constructor
  · intro emits
    cases sealing : slot.isSealed with
    | true =>
      rw [advanceGaps_closed sealing] at emits
      exact absurd rfl emits
    | false =>
      by_contra patient
      have idle : NoGapExpires cfg slot now := by
        intro first entry found
        by_contra late
        exact patient ⟨sealing, first, entry, found, Nat.le_of_not_lt late⟩
      rw [advanceGaps_idle settled.quiet idle] at emits
      exact absurd rfl emits
  · rintro ⟨opened, first, entry, found, late⟩
    have present := getElem?_of_firstEntry found
    have loop : InLoop cfg slotKey slot (advanceGaps cfg now slotKey slot).1 _ :=
      gaps_inLoop opened settled.quiet.cursorBelow now
    have conserved := @slotStep_copies cfg _ _ settled _ (belongsTo_advance slotKey now)
      entry.merged.observation
    have buffered : bufferedCopies entry.merged.observation slot = 1 := by
      refine if_pos ?_
      rw [Buffers, (settled.placed first entry present).2, present]
      rfl
    -- the first entry is not left in the buffer, for there phase A would not stop
    have gone :
        bufferedCopies entry.merged.observation (advanceGaps cfg now slotKey slot).1 = 0 := by
      refine if_neg fun left => ?_
      obtain ⟨other, present', _⟩ := Option.map_eq_some_iff.mp left
      rw [(settled.placed first entry present).2] at present'
      have same := loop.moves.pending_subset present'
      rw [present] at same
      cases same
      have least :
          firstEntry (advanceGaps cfg now slotKey slot).1.pending = some (first, entry) := by
        refine firstEntry_eq_some_iff.mpr ⟨present', fun idx member => ?_⟩
        obtain ⟨waiting, present''⟩ := Option.isSome_iff_exists.mp
          (ExtTreeMap.mem_iff_isSome_getElem?.mp member)
        have before := loop.moves.pending_subset present''
        exact firstEntry_isLE found (ExtTreeMap.mem_iff_isSome_getElem?.mpr (by simp [before]))
      exact Nat.not_lt.mpr late (gaps_stop opened least)
    simp only [slotStep, acceptedCopies, displacedCopies, Nat.add_zero, buffered, gone]
      at conserved
    exact emitsEntry_of_copies (Nat.lt_of_lt_of_eq Nat.one_pos conserved.symm)

/-- **Sealing emits an entry of an open slot exactly when something is buffered.** -/
theorem emits_sealState (settled : Settled slotKey slot) :
    EmitsEntry (sealState cfg now slotKey slot).2 ↔
      slot.isSealed = false ∧ slot.pending ≠ ∅ := by
  cases sealing : slot.isSealed with
  | true =>
    rw [sealState_closed sealing]
    simp [EmitsEntry, emittedEntries]
  | false =>
    constructor
    · intro emits
      refine ⟨rfl, fun emptied => emits ?_⟩
      rw [sealState_opened sealing, flushPending_of_empty emptied, List.nil_append,
        sent_closingEffects]
      unfold terminalEvent
      split <;> rfl
    · rintro ⟨_, nonempty⟩
      obtain ⟨first, entry, found⟩ := firstEntry_of_ne_empty nonempty
      have present := getElem?_of_firstEntry found
      have conserved := @slotStep_copies cfg _ _ settled _ (belongsTo_sealing slotKey now)
        entry.merged.observation
      have buffered : bufferedCopies entry.merged.observation slot = 1 := by
        refine if_pos ?_
        rw [Buffers, (settled.placed first entry present).2, present]
        rfl
      have emptied : (sealState cfg now slotKey slot).1.pending = ∅ := by
        rw [sealState_opened sealing]
        exact flush_empties sealing settled.quiet.cursorBelow now
      simp only [slotStep, acceptedCopies, displacedCopies, Nat.add_zero, buffered,
        bufferedCopies_of_empty emptied] at conserved
      exact emitsEntry_of_copies (Nat.lt_of_lt_of_eq Nat.one_pos conserved.symm)

/-- **The flush after phase A of a sweep emits an entry exactly when a stretch of the
buffer is held back.** -/
theorem emits_flush (settled : Settled slotKey slot) :
    EmitsEntry (sealState cfg now slotKey (advanceGaps cfg now slotKey slot).1).2 ↔
      HoldsBack cfg now slot := by
  have settled' : Settled slotKey (advanceGaps cfg now slotKey slot).1 :=
    @slotStep_settled cfg _ _ _ settled (belongsTo_advance slotKey now)
  rw [emits_sealState settled', advanceGaps_isSealed settled]
  refine ⟨fun ⟨opened, left⟩ => ?_, fun holds => ⟨holds.1, held_of_holdsBack settled holds⟩⟩
  obtain ⟨first, entry, found⟩ := firstEntry_of_ne_empty left
  obtain ⟨present, apart⟩ := first_left opened settled found
  exact ⟨opened, first, entry, present, apart, gaps_stop opened found⟩

/-- An arrival emits entries exactly when it is at the cursor of an open slot. -/
theorem emits_processSlot {merged : MergedEntry} :
    EmitsEntry (processSlot cfg slot merged now).2 ↔
      slot.isSealed = false ∧ merged.observation.entryIndex = slot.nextExpectedIdx := by
  have silent : ∀ {effects : List SupervisorEffect}, sent effects = [] → ¬ EmitsEntry effects := by
    intro effects none emits
    exact emits (by rw [none]; rfl)
  cases sealing : slot.isSealed with
  | true =>
    rw [processSlot_afterSeal sealing]
    exact iff_of_false (silent rfl) (by simp)
  | false =>
    rw [processSlot_opened sealing]
    split
    · next here =>
      refine iff_of_true (fun none => ?_) ⟨rfl, here⟩
      have event : sent (emitAtCursor slot merged now).2 =
          [entryEvent (slot.noted now) merged false 0] := sent_emitEntry _ _ _ _ _
      rw [sent_append, event, emittedEntries_append] at none
      cases (List.append_eq_nil_iff.mp none).1
    · next apart =>
      refine iff_of_false ?_ (by simp [apart])
      split
      · split
        · exact silent rfl
        · exact silent rfl
      · exact silent rfl

end OneSlot

/-! ## The slots of what is emitted -/

/-- The slots of the entries emitted, in order. -/
def entrySlots (events : List OrderedEvent) : List Nat :=
  (emittedEntries events).map OrderedEntry.slot

@[simp] theorem entrySlots_nil : entrySlots [] = [] := rfl

@[simp] theorem entrySlots_append (first second : List OrderedEvent) :
    entrySlots (first ++ second) = entrySlots first ++ entrySlots second := by
  simp [entrySlots]

theorem mem_entrySlots {events : List OrderedEvent} {slotKey : Nat} :
    slotKey ∈ entrySlots events ↔ ∃ e, OrderedEvent.entry e ∈ events ∧ e.slot = slotKey := by
  simp [entrySlots, mem_emittedEntries]

/-- Events of one slot have the slots of its entries. -/
theorem mem_entrySlots_own {effects : List SupervisorEffect} {slotKey other : Nat}
    (own : ∀ event ∈ sent effects, event.slot = slotKey) :
    other ∈ entrySlots (sent effects) ↔ other = slotKey ∧ EmitsEntry effects := by
  rw [mem_entrySlots, emitsEntry_iff]
  constructor
  · rintro ⟨e, member, rfl⟩
    exact ⟨own _ member, e, member⟩
  · rintro ⟨rfl, e, member⟩
    exact ⟨e, member, own _ member⟩

/-- No entry of an earlier slot comes after an entry of a later one. -/
def SlotsInOrder (events : List OrderedEvent) : Prop :=
  EachAfter (fun before event => ∀ e, event = .entry e →
    ∀ earlier, .entry earlier ∈ before → earlier.slot ≤ e.slot) events

theorem slotsInOrder_iff_pairwise {events : List OrderedEvent} :
    SlotsInOrder events ↔ (entrySlots events).Pairwise (· ≤ ·) := by
  unfold SlotsInOrder
  induction events using List.reverseRecOn with
  | nil => exact iff_of_true (eachAfter_nil _) List.Pairwise.nil
  | append_singleton past event ih =>
    rw [eachAfter_concat, ih, entrySlots_append, List.pairwise_append]
    refine and_congr_right fun _ => ?_
    cases event with
    | entry e =>
      have single : entrySlots [.entry e] = [e.slot] := rfl
      rw [single]
      constructor
      · intro above
        refine ⟨List.pairwise_singleton _ _, ?_⟩
        rintro slotKey member _ (_ | ⟨_, ⟨⟩⟩)
        obtain ⟨earlier, listed, rfl⟩ := mem_entrySlots.mp member
        exact above e rfl earlier listed
      · rintro ⟨_, above⟩ other ⟨⟩ earlier listed
        exact above _ (mem_entrySlots.mpr ⟨earlier, listed, rfl⟩) _ List.mem_cons_self
    | missing | slotComplete | slotIncomplete =>
      refine iff_of_true (by simp) ⟨List.Pairwise.nil, ?_⟩
      intro _ _ _ none
      cases none

/-- A visit of ascending slots emits entries in slot order. -/
theorem entrySlots_visits {update : Nat → PohSlot → PohSlot × List SupervisorEffect}
    {slots : ExtTreeMap Nat PohSlot} {keys : List Nat} (sorted : keys.Pairwise (· < ·))
    (own : ∀ slotKey slot, slots[slotKey]? = some slot →
      ∀ event ∈ sent (update slotKey slot).2, event.slot = slotKey) :
    (entrySlots (sent (runAll (updateAt update) slots keys).2)).Pairwise (· ≤ ·) ∧
      ∀ slotKey, slotKey ∈ entrySlots (sent (runAll (updateAt update) slots keys).2) ↔
        slotKey ∈ keys ∧ ∃ slot, slots[slotKey]? = some slot ∧
          EmitsEntry (update slotKey slot).2 := by
  have distinct : keys.Nodup := sorted.imp Nat.ne_of_lt
  let visit : Nat → List SupervisorEffect := fun slotKey =>
    (slots[slotKey]?.map fun slot => (update slotKey slot).2).getD []
  have outputs : (runAll (updateAt update) slots keys).2 = keys.flatMap visit :=
    runAll_updateAt_outputs update distinct slots
  have parts : entrySlots (sent (keys.flatMap visit)) =
      keys.flatMap fun slotKey => entrySlots (sent (visit slotKey)) := by
    clear outputs sorted distinct
    induction keys with
    | nil => rfl
    | cons head rest ih =>
      rw [List.flatMap_cons, List.flatMap_cons, sent_append, entrySlots_append, ih]
  have inside : ∀ slotKey other, other ∈ entrySlots (sent (visit slotKey)) ↔
      other = slotKey ∧ ∃ slot, slots[slotKey]? = some slot ∧
        EmitsEntry (update slotKey slot).2 := by
    intro slotKey other
    cases found : slots[slotKey]? with
    | none => simp [visit, found]
    | some slot =>
      simpa [visit, found] using @mem_entrySlots_own _ _ other (own slotKey slot found)
  rw [outputs, parts]
  constructor
  · rw [List.pairwise_flatMap]
    constructor
    · intro slotKey _
      refine List.pairwise_of_forall_mem_list fun first one second two => ?_
      rw [((inside slotKey first).mp one).1, ((inside slotKey second).mp two).1]
    · refine sorted.imp fun below first one second two => ?_
      rw [((inside _ first).mp one).1, ((inside _ second).mp two).1]
      exact Nat.le_of_lt below
  · intro slotKey
    rw [List.mem_flatMap]
    constructor
    · rintro ⟨visited, member, listed⟩
      obtain ⟨rfl, emits⟩ := (inside visited slotKey).mp listed
      exact ⟨member, emits⟩
    · rintro ⟨member, emits⟩
      exact ⟨slotKey, member, (inside slotKey slotKey).mpr ⟨rfl, emits⟩⟩

/-! ## The phases of a sweep -/

section Phases

variable {cfg : Config} {state : State} {now : Instant}

/-- Phase A of a sweep emits entries of the slots whose first gap expires, in slot
order. -/
theorem entrySlots_sweepGaps (settled : AllSettled state.slots) :
    (entrySlots (sent (sweepGaps cfg now state.slots).2)).Pairwise (· ≤ ·) ∧
      ∀ slotKey, slotKey ∈ entrySlots (sent (sweepGaps cfg now state.slots).2) ↔
        ∃ slot, state.slots[slotKey]? = some slot ∧ GapExpires cfg now slot := by
  have visits := @entrySlots_visits (advanceGaps cfg now) state.slots state.slots.keys sorted_keys
    fun slotKey slot found =>
      (@slotStep_placed cfg _ _ _ (settled slotKey slot found) (belongsTo_advance slotKey now)).2
  refine ⟨visits.1, fun slotKey => (visits.2 slotKey).trans ?_⟩
  constructor
  · rintro ⟨_, slot, found, emits⟩
    exact ⟨slot, found, (emits_advanceGaps (settled slotKey slot found)).mp emits⟩
  · rintro ⟨slot, found, expires⟩
    refine ⟨ExtTreeMap.mem_keys.mpr (ExtTreeMap.mem_iff_isSome_getElem?.mpr ?_), slot, found,
      (emits_advanceGaps (settled slotKey slot found)).mpr expires⟩
    rw [found, Option.isSome_some]

/-- Phase B of a sweep emits entries of the slots that are due and hold an entry back, in
slot order. -/
theorem entrySlots_sweepSeal (settled : AllSettled state.slots) :
    (entrySlots (sent (sweepSeal cfg state.maxSlot now
        (sweepGaps cfg now state.slots).1).2)).Pairwise (· ≤ ·) ∧
      ∀ slotKey, slotKey ∈ entrySlots (sent (sweepSeal cfg state.maxSlot now
          (sweepGaps cfg now state.slots).1).2) ↔
        due cfg state.maxSlot slotKey = true ∧
          ∃ slot, state.slots[slotKey]? = some slot ∧ HoldsBack cfg now slot := by
  have advanced := sweepGaps_settled cfg now state.slots settled
  have sorted : (((sweepGaps cfg now state.slots).1.toList.filter fun entry =>
      due cfg state.maxSlot entry.1 && !entry.2.isSealed).map Prod.fst).Pairwise (· < ·) := by
    have keys := @sorted_keys _ (sweepGaps cfg now state.slots).1
    rw [← ExtTreeMap.map_fst_toList_eq_keys] at keys
    exact keys.sublist (List.filter_sublist.map Prod.fst)
  have visits := @entrySlots_visits (sealState cfg now) (sweepGaps cfg now state.slots).1 _ sorted
    fun slotKey slot found =>
      (@slotStep_placed cfg _ _ _ (advanced slotKey slot found) (belongsTo_sealing slotKey now)).2
  refine ⟨visits.1, fun slotKey => (visits.2 slotKey).trans ?_⟩
  rw [mem_toSeal]
  constructor
  · rintro ⟨⟨_, _, ripe, _⟩, slot, found, emits⟩
    rw [sweepGaps_getElem?, Option.map_eq_some_iff] at found
    obtain ⟨before, found, rfl⟩ := found
    exact ⟨ripe, before, found, (emits_flush (settled slotKey before found)).mp emits⟩
  · rintro ⟨ripe, slot, found, holds⟩
    have found' : (sweepGaps cfg now state.slots).1[slotKey]? =
        some (advanceGaps cfg now slotKey slot).1 := by
      rw [sweepGaps_getElem?, found, Option.map_some]
    have opened : (advanceGaps cfg now slotKey slot).1.isSealed = false := by
      rw [advanceGaps_isSealed (settled slotKey slot found), holds.1]
    exact ⟨⟨_, found', ripe, opened⟩, _, found',
      (emits_flush (settled slotKey slot found)).mpr holds⟩

/-- The last flush emits entries of the slots that are not due and hold an entry back, in
slot order. -/
theorem entrySlots_flush (settled : AllSettled state.slots) :
    (entrySlots (sent (runAll (sealSlot cfg now) (sweep cfg state now).1.slots
        (sweep cfg state now).1.slots.keys).2)).Pairwise (· ≤ ·) ∧
      ∀ slotKey, slotKey ∈ entrySlots (sent (runAll (sealSlot cfg now)
          (sweep cfg state now).1.slots (sweep cfg state now).1.slots.keys).2) ↔
        due cfg state.maxSlot slotKey = false ∧
          ∃ slot, state.slots[slotKey]? = some slot ∧ HoldsBack cfg now slot := by
  have swept := sweep_settled cfg state settled now
  have visits := @entrySlots_visits (sealState cfg now) (sweep cfg state now).1.slots
    (sweep cfg state now).1.slots.keys sorted_keys
    fun slotKey slot found =>
      (@slotStep_placed cfg _ _ _ (swept slotKey slot found) (belongsTo_sealing slotKey now)).2
  refine ⟨visits.1, fun slotKey => (visits.2 slotKey).trans ?_⟩
  constructor
  · rintro ⟨_, slot, found, emits⟩
    have opened := ((emits_sealState (swept slotKey slot found)).mp emits).1
    obtain ⟨before, found', _, notDue, rfl⟩ :=
      (sweep_open_iff cfg settled now slotKey slot).mp ⟨found, opened⟩
    exact ⟨notDue, before, found', (emits_flush (settled slotKey before found')).mp emits⟩
  · rintro ⟨notDue, slot, found, holds⟩
    obtain ⟨found', _⟩ := (sweep_open_iff cfg settled now slotKey _).mpr
      ⟨slot, found, holds.1, notDue, rfl⟩
    refine ⟨ExtTreeMap.mem_keys.mpr (ExtTreeMap.mem_iff_isSome_getElem?.mpr ?_), _, found',
      (emits_flush (settled slotKey slot found)).mpr holds⟩
    rw [found', Option.isSome_some]

end Phases

/-! ## Runs -/

/-- A sweep opens gaps and flushes buffers of slots that are not below a slot that has
emitted; the slots it flushes are not below those whose gaps it opens. -/
def SweepKeepsOrder (cfg : Config) (state : State) (now : Instant) (ends : Nat → Prop)
    (emitted : List Nat) : Prop :=
  (∀ (slotKey : Nat) (slot : PohSlot), state.slots[slotKey]? = some slot →
    GapExpires cfg now slot → ∀ earlier ∈ emitted, earlier ≤ slotKey) ∧
  ∀ (slotKey : Nat) (slot : PohSlot), state.slots[slotKey]? = some slot → ends slotKey →
    HoldsBack cfg now slot → (∀ earlier ∈ emitted, earlier ≤ slotKey) ∧
      ∀ (opened : Nat) (other : PohSlot), state.slots[opened]? = some other →
        GapExpires cfg now other → opened ≤ slotKey

/-- An input leads to no entry of a slot below one that has emitted. -/
def KeepsSlotOrder (cfg : Config) (past : List Input) : Input → Prop
  | .receive merged _ =>
      (stateFound cfg merged.observation.slot past).isSealed = false →
        merged.observation.entryIndex =
            (stateFound cfg merged.observation.slot past).nextExpectedIdx →
          ∀ earlier ∈ entrySlots (events cfg past), earlier ≤ merged.observation.slot
  | .sweep now =>
      SweepKeepsOrder cfg (run cfg past).1 now
        (fun slotKey => due cfg (run cfg past).1.maxSlot slotKey = true)
        (entrySlots (events cfg past))
  | .shutdown now =>
      SweepKeepsOrder cfg (run cfg past).1 now (fun _ => True) (entrySlots (events cfg past))

instance (cfg : Config) (state : State) (now : Instant) (ends : Nat → Prop) [DecidablePred ends]
    (emitted : List Nat) : Decidable (SweepKeepsOrder cfg state now ends emitted) :=
  decidable_of_iff
    ((∀ entry ∈ state.slots.toList,
        GapExpires cfg now entry.2 → ∀ earlier ∈ emitted, earlier ≤ entry.1) ∧
      ∀ entry ∈ state.slots.toList, ends entry.1 → HoldsBack cfg now entry.2 →
        (∀ earlier ∈ emitted, earlier ≤ entry.1) ∧
          ∀ other ∈ state.slots.toList, GapExpires cfg now other.2 → other.1 ≤ entry.1)
    (by
      unfold SweepKeepsOrder
      simp only [forall_getElem?_iff])

instance (cfg : Config) (past : List Input) : DecidablePred (KeepsSlotOrder cfg past)
  | .receive merged _ => inferInstanceAs (Decidable (_ → _ →
      ∀ earlier ∈ entrySlots (events cfg past), earlier ≤ merged.observation.slot))
  | .sweep now => inferInstanceAs (Decidable (SweepKeepsOrder cfg (run cfg past).1 now
      (fun slotKey => due cfg (run cfg past).1.maxSlot slotKey = true)
      (entrySlots (events cfg past))))
  | .shutdown now => inferInstanceAs (Decidable (SweepKeepsOrder cfg (run cfg past).1 now
      (fun _ => True) (entrySlots (events cfg past))))

/-- Three ordered stretches are in order when the later ones do not go below the
earlier. -/
theorem pairwise_stretches {emitted gaps flushed : List Nat} (ordered : gaps.Pairwise (· ≤ ·))
    (ordered' : flushed.Pairwise (· ≤ ·)) :
    (emitted ++ (gaps ++ flushed)).Pairwise (· ≤ ·) ↔
      emitted.Pairwise (· ≤ ·) ∧
        (∀ slotKey ∈ gaps, ∀ earlier ∈ emitted, earlier ≤ slotKey) ∧
        ∀ slotKey ∈ flushed, (∀ earlier ∈ emitted, earlier ≤ slotKey) ∧
          ∀ opened ∈ gaps, opened ≤ slotKey := by
  simp only [List.pairwise_append, List.mem_append, ordered, ordered', true_and]
  constructor
  · rintro ⟨first, later, all⟩
    exact ⟨first, fun slotKey member earlier listed => all earlier listed slotKey (.inl member),
      fun slotKey member => ⟨fun earlier listed => all earlier listed slotKey (.inr member),
        fun opened listed => later opened listed slotKey member⟩⟩
  · rintro ⟨first, opens, flushes⟩
    refine ⟨first, fun opened listed slotKey member => (flushes slotKey member).2 opened listed,
      fun earlier listed slotKey member => ?_⟩
    exact member.elim (opens slotKey · earlier listed) fun flushed =>
      (flushes slotKey flushed).1 earlier listed

/-- A sweep whose flushes are of given slots. -/
theorem sweepKeepsOrder_iff {cfg : Config} {state : State} {now : Instant} {ends : Nat → Prop}
    {emitted gaps flushed : List Nat}
    (opens : ∀ slotKey, slotKey ∈ gaps ↔
      ∃ slot, state.slots[slotKey]? = some slot ∧ GapExpires cfg now slot)
    (flushes : ∀ slotKey, slotKey ∈ flushed ↔
      ends slotKey ∧ ∃ slot, state.slots[slotKey]? = some slot ∧ HoldsBack cfg now slot) :
    SweepKeepsOrder cfg state now ends emitted ↔
      (∀ slotKey ∈ gaps, ∀ earlier ∈ emitted, earlier ≤ slotKey) ∧
        ∀ slotKey ∈ flushed, (∀ earlier ∈ emitted, earlier ≤ slotKey) ∧
          ∀ opened ∈ gaps, opened ≤ slotKey := by
  constructor
  · rintro ⟨gap, flush⟩
    refine ⟨fun slotKey member => ?_, fun slotKey member => ?_⟩
    · obtain ⟨slot, found, expires⟩ := (opens slotKey).mp member
      exact gap slotKey slot found expires
    · obtain ⟨ending, slot, found, holds⟩ := (flushes slotKey).mp member
      refine ⟨(flush slotKey slot found ending holds).1, fun opened listed => ?_⟩
      obtain ⟨other, found', expires⟩ := (opens opened).mp listed
      exact (flush slotKey slot found ending holds).2 opened other found' expires
  · rintro ⟨gap, flush⟩
    refine ⟨fun slotKey slot found expires =>
        gap slotKey ((opens slotKey).mpr ⟨slot, found, expires⟩),
      fun slotKey slot found ending holds => ?_⟩
    have member := (flushes slotKey).mpr ⟨ending, slot, found, holds⟩
    exact ⟨(flush slotKey member).1, fun opened other found' expires =>
      (flush slotKey member).2 opened ((opens opened).mpr ⟨other, found', expires⟩)⟩

/-- **An input extends a run in slot order exactly when it keeps the order.** -/
theorem pairwise_step {cfg : Config} {past : List Input} {input : Input} :
    (entrySlots (events cfg past) ++
        entrySlots (sent (step cfg (run cfg past).1 input).2)).Pairwise (· ≤ ·) ↔
      (entrySlots (events cfg past)).Pairwise (· ≤ ·) ∧ KeepsSlotOrder cfg past input := by
  have settled := run_settled cfg past
  cases input with
  | receive merged now =>
    have belongs : (SlotInput.arrive merged now).BelongsTo merged.observation.slot := by
      rintro _ _ ⟨⟩
      rfl
    have own := (@slotStep_placed cfg _ _ _
      (settled_getD merged.observation.slot settled) belongs).2
    have inside := fun other => @mem_entrySlots_own _ _ other own
    have effects : (step cfg (run cfg past).1 (.receive merged now)).2 =
        (slotStep cfg merged.observation.slot (stateFound cfg merged.observation.slot past)
          (.arrive merged now)).2 := rfl
    rw [effects, List.pairwise_append]
    have alone : (entrySlots (sent (slotStep cfg merged.observation.slot
        (stateFound cfg merged.observation.slot past) (.arrive merged now)).2)).Pairwise (· ≤ ·) :=
      List.pairwise_of_forall_mem_list fun first one second two => by
        rw [((inside first).mp one).1, ((inside second).mp two).1]
    simp only [alone, true_and, KeepsSlotOrder]
    refine and_congr_right fun _ => ?_
    constructor
    · intro above opened here earlier listed
      exact above earlier listed _ ((inside _).mpr ⟨rfl, emits_processSlot.mpr ⟨opened, here⟩⟩)
    · intro above earlier listed other member
      obtain ⟨rfl, emits⟩ := (inside other).mp member
      obtain ⟨opened, here⟩ := emits_processSlot.mp emits
      exact above opened here earlier listed
  | sweep now =>
    obtain ⟨ordered, opens⟩ := @entrySlots_sweepGaps cfg _ now settled
    obtain ⟨ordered', flushes⟩ := @entrySlots_sweepSeal cfg _ now settled
    simp only [step, sweep, sent_append, entrySlots_append]
    rw [pairwise_stretches ordered ordered', KeepsSlotOrder, sweepKeepsOrder_iff opens flushes]
  | shutdown now =>
    obtain ⟨ordered, opens⟩ := @entrySlots_sweepGaps cfg _ now settled
    obtain ⟨ordered', dueFlushes⟩ := @entrySlots_sweepSeal cfg _ now settled
    obtain ⟨ordered'', lastFlushes⟩ := @entrySlots_flush cfg _ now settled
    have effects : (step cfg (run cfg past).1 (.shutdown now)).2 =
        (sweepGaps cfg now (run cfg past).1.slots).2 ++
          ((sweepSeal cfg (run cfg past).1.maxSlot now
              (sweepGaps cfg now (run cfg past).1.slots).1).2 ++
            (runAll (sealSlot cfg now) (sweep cfg (run cfg past).1 now).1.slots
              (sweep cfg (run cfg past).1 now).1.slots.keys).2) := by
      simp only [step, shutdown, sweep, List.append_assoc]
    rw [effects, sent_append, sent_append, entrySlots_append, entrySlots_append]
    -- the slots that are due lie below those that are not
    have allOrdered := List.pairwise_append.mpr ⟨ordered', ordered'', fun first one second two => by
      have ripe := ((dueFlushes first).mp one).1
      have unripe := ((lastFlushes second).mp two).1
      simp only [due, Bool.and_eq_true, decide_eq_true_eq, Bool.and_eq_false_iff,
        decide_eq_false_iff_not] at ripe unripe
      omega⟩
    rw [pairwise_stretches ordered allOrdered, KeepsSlotOrder,
      sweepKeepsOrder_iff opens (fun slotKey => ?_)]
    rw [List.mem_append, dueFlushes, lastFlushes, ← or_and_right]
    cases due cfg (run cfg past).1.maxSlot slotKey <;> simp

/-- **The entries of a run come in slot order exactly when every input keeps it.** -/
theorem slotsInOrder_iff (cfg : Config) (inputs : List Input) :
    SlotsInOrder (events cfg inputs) ↔ EachAfter (KeepsSlotOrder cfg) inputs := by
  rw [slotsInOrder_iff_pairwise]
  induction inputs using List.reverseRecOn with
  | nil => exact iff_of_true List.Pairwise.nil (eachAfter_nil _)
  | append_singleton past input ih =>
    have grown : events cfg (past ++ [input]) =
        events cfg past ++ sent (step cfg (run cfg past).1 input).2 := by
      rw [events, run, runAll_concat, sent_append]
      rfl
    rw [grown, entrySlots_append, pairwise_step, eachAfter_concat, ih]

end SenderAnalysis.PohSupervisor

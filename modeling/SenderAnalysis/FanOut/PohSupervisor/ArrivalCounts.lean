import SenderAnalysis.FanOut.PohSupervisor.ArrivalFates

/-!
# The counters of the arrivals

Every arrival is counted: as emitted at once, as a duplicate, as dropped for lack of
room, or as late after the seal; and what is buffered is counted when it leaves the
buffer. So the counters and the entries still buffered add up to the arrivals, but
for the arrivals that were buffered at an index that was buffered already. The
insertion replaces the entry that was there, which then is neither buffered nor
counted (`arrivals_balance`).
-/

set_option autoImplicit false

namespace SenderAnalysis.PohSupervisor

open Std (ExtTreeMap)
open OrderedMap

/-! ## One slot -/

/-- How many arrivals the counters account for. -/
def accounted (effects : List SupervisorEffect) : Nat :=
  counted .entriesEmittedImmediate effects + counted .entriesEmittedReordered effects +
    counted .duplicatesDropped effects + counted .pendingDropsCapacity effects +
    counted .lateArrivalsAfterSeal effects

@[simp] theorem accounted_nil : accounted [] = 0 := rfl

@[simp] theorem accounted_append (first second : List SupervisorEffect) :
    accounted (first ++ second) = accounted first + accounted second := by
  simp only [accounted, counted_append]
  omega

/-- How many entries are buffered for a slot. -/
def pendingSize (slot : PohSlot) : Nat := slot.pending.size

/-- An arrival is buffered at an index that is buffered already. -/
def Overwrites (cfg : Config) (slot : PohSlot) (merged : MergedEntry) : Prop :=
  slot.isSealed = false ∧ slot.nextExpectedIdx < merged.observation.entryIndex ∧
    slot.pending.size < cfg.maxPendingPerSlot ∧ merged.observation.entryIndex ∈ slot.pending

instance (cfg : Config) (slot : PohSlot) (merged : MergedEntry) :
    Decidable (Overwrites cfg slot merged) :=
  inferInstanceAs (Decidable (_ ∧ _ ∧ _ ∧ _))

/-- How many entries an input of a slot brings. -/
def arrivalCount : Option SlotInput → Nat
  | some (.arrive _ _) => 1
  | some (.advance _) | some (.sealing _) | none => 0

/-- How many buffered entries an input of a slot overwrites. -/
def overwriteCount (cfg : Config) (slot : PohSlot) : Option SlotInput → Nat
  | some (.arrive merged _) => if Overwrites cfg slot merged then 1 else 0
  | some (.advance _) | some (.sealing _) | none => 0

section OneSlot

variable {cfg : Config} {slotKey : Nat} {start slot : PohSlot}

theorem accounted_emitEntry_immediate (merged : MergedEntry) (now : Instant) (wait : Nat) :
    accounted (emitEntry slot merged now false wait).2 = 1 := by
  simp [accounted, emitEntry]

theorem accounted_emitEntry_reordered (merged : MergedEntry) (now : Instant) (wait : Nat) :
    accounted (emitEntry slot merged now true wait).2 = 1 := by
  simp [accounted, emitEntry]

/-- **A move accounts for the arrival it takes in and for what leaves the buffer.** -/
theorem Move.balance {label : Option SlotInput} {result : PohSlot × List SupervisorEffect}
    (move : Move cfg slotKey slot label result) :
    accounted result.2 + pendingSize result.1 + overwriteCount cfg slot label =
      pendingSize slot + arrivalCount label := by
  cases move with
  | afterSeal merged now closed =>
    have kept : ¬ Overwrites cfg slot merged := fun overwrites => by simp [overwrites.1] at closed
    have one : accounted [.fetchAdd .lateArrivalsAfterSeal 1] = 1 := rfl
    simp only [one, overwriteCount, if_neg kept, arrivalCount]
    omega
  | emit merged now opened here =>
    have kept : ¬ Overwrites cfg slot merged :=
      fun overwrites => UInt32.lt_irrefl _ (here ▸ overwrites.2.1)
    have one : accounted (emitAtCursor slot merged now).2 = 1 :=
      accounted_emitEntry_immediate merged now 0
    have same : pendingSize (emitAtCursor slot merged now).1 = pendingSize slot := rfl
    simp only [one, same, overwriteCount, if_neg kept, arrivalCount]
    omega
  | buffer merged now opened above room =>
    have none : ∀ size, accounted [.fetchMax .pendingPeakSize size] = 0 := fun _ => rfl
    rw [none]
    simp only [pendingSize, overwriteCount, arrivalCount, ExtTreeMap.size_insert,
      ExtTreeMap.contains_iff_mem]
    by_cases old : merged.observation.entryIndex ∈ slot.pending
    · have overwrites : Overwrites cfg slot merged := ⟨opened, above, room, old⟩
      rw [if_pos old, if_pos overwrites]
      omega
    · have kept : ¬ Overwrites cfg slot merged := fun overwrites => old overwrites.2.2.2
      rw [if_neg old, if_neg kept]
      omega
  | refuse merged now opened above full =>
    have kept : ¬ Overwrites cfg slot merged :=
      fun overwrites => Nat.not_lt.mpr full overwrites.2.2.1
    have one : accounted [.fetchAdd .pendingDropsCapacity 1] = 1 := rfl
    have same : pendingSize (slot.noted now) = pendingSize slot := rfl
    simp only [one, same, overwriteCount, if_neg kept, arrivalCount]
    omega
  | late merged now opened below =>
    have kept : ¬ Overwrites cfg slot merged :=
      fun overwrites => UInt32.lt_irrefl _ (UInt32.lt_trans below overwrites.2.1)
    have one : accounted [.fetchAdd .duplicatesDropped 1] = 1 := rfl
    have same : pendingSize
        { slot.noted now with tickIdx := countTick slot.tickIdx merged.observation } =
          pendingSize slot := rfl
    simp only [one, same, overwriteCount, if_neg kept, arrivalCount]
    omega
  | advance | sealing => simp [overwriteCount, arrivalCount]
  | pop now entry opened found =>
    have one : accounted (emitPending now slot slot.nextExpectedIdx entry).2 = 1 :=
      accounted_emitEntry_reordered entry.merged now _
    have member := mem_of_firstEntry found
    have positive : slot.pending.size ≠ 0 := fun zero => by
      rw [ExtTreeMap.eq_empty_iff_size_eq_zero.mpr zero] at member
      simp at member
    simp only [one, pendingSize, emitPending_pending, ExtTreeMap.size_erase,
      ExtTreeMap.contains_iff_mem, if_pos member, overwriteCount, arrivalCount]
    omega
  | skip now first entry opened found gap =>
    have none : accounted (emitMissing cfg slotKey now slot).2 = 0 := rfl
    have same : pendingSize (emitMissing cfg slotKey now slot).1 = pendingSize slot := rfl
    simp [none, same, overwriteCount, arrivalCount]
  | close now opened emptied =>
    have none : accounted (closingEffects slotKey slot) = 0 := by
      unfold closingEffects
      split <;> split <;> rfl
    have same : pendingSize { slot with isSealed := true } = pendingSize slot := rfl
    simp [none, same, overwriteCount, arrivalCount]

theorem Moves.balance {effects : List SupervisorEffect}
    (moves : Moves cfg slotKey start slot effects) :
    accounted effects + pendingSize slot = pendingSize start := by
  induction moves with
  | done => simp
  | snoc earlier below move ih =>
    have balanced := move.balance
    simp only [overwriteCount, arrivalCount, Nat.add_zero] at balanced
    rw [accounted_append]
    omega

/-- **An input of a slot accounts for the arrival it brings and for what leaves the
buffer.** -/
theorem slotStep_balance (settled : Settled slotKey slot) (input : SlotInput) :
    accounted (slotStep cfg slotKey slot input).2 +
        pendingSize (slotStep cfg slotKey slot input).1 + overwriteCount cfg slot (some input) =
      pendingSize slot + arrivalCount (some input) := by
  obtain ⟨first, more, move, moves, effects⟩ :=
    (@slotStep_consumed cfg slotKey slot settled.quiet input).split
  have begun := move.balance
  have continued := moves.balance
  rw [effects, accounted_append]
  omega

end OneSlot

/-! ## All slots -/

section AllSlots

variable {cfg : Config}

/-- A slot whose buffer is in order and, once it is sealed, empty. -/
def Tidy (slotKey : Nat) (slot : PohSlot) : Prop := Settled slotKey slot ∧ SealedEmpty slot

/-- Every slot is tidy. -/
def AllTidy (slots : ExtTreeMap Nat PohSlot) : Prop :=
  ∀ slotKey slot, slots[slotKey]? = some slot → Tidy slotKey slot

/-- How many entries are buffered over all slots. -/
def totalPending (slots : ExtTreeMap Nat PohSlot) : Nat := total pendingSize slots

/-- Phase A and sealing account for what leaves the buffer. -/
theorem visit_balance {slotKey : Nat} {slot : PohSlot} (tidy : Tidy slotKey slot)
    {input : SlotInput} (belongs : input.BelongsTo slotKey)
    (silent : arrivalCount (some input) = 0) :
    Tidy slotKey (slotStep cfg slotKey slot input).1 ∧
      accounted (slotStep cfg slotKey slot input).2 +
        pendingSize (slotStep cfg slotKey slot input).1 = pendingSize slot := by
  refine ⟨⟨slotStep_settled tidy.1 belongs, slotStep_sealedEmpty tidy.1.quiet tidy.2 input⟩, ?_⟩
  have balanced := @slotStep_balance cfg slotKey slot tidy.1 input
  cases input with
  | arrive => cases silent
  | advance | sealing => exact balanced

theorem sweepGaps_balance {slots : ExtTreeMap Nat PohSlot} (tidy : AllTidy slots) (now : Instant) :
    AllTidy (sweepGaps cfg now slots).1 ∧
      accounted (sweepGaps cfg now slots).2 + totalPending (sweepGaps cfg now slots).1 =
        totalPending slots :=
  runAll_updateAt_total pendingSize accounted_nil accounted_append
    (fun slotKey _ held => visit_balance held (belongsTo_advance slotKey now) rfl) tidy slots.keys

theorem sealSlots_balance {slots : ExtTreeMap Nat PohSlot} (tidy : AllTidy slots) (now : Instant)
    (keys : List Nat) :
    AllTidy (runAll (sealSlot cfg now) slots keys).1 ∧
      accounted (runAll (sealSlot cfg now) slots keys).2 +
          totalPending (runAll (sealSlot cfg now) slots keys).1 = totalPending slots :=
  runAll_updateAt_total pendingSize accounted_nil accounted_append
    (fun slotKey _ held => visit_balance held (belongsTo_sealing slotKey now) rfl) tidy keys

/-- What a sweep drops buffers nothing. -/
theorem sweepDrop_balance {slots : ExtTreeMap Nat PohSlot} (tidy : AllTidy slots) (maxSlot : Nat) :
    AllTidy (sweepDrop cfg maxSlot slots) ∧
      totalPending (sweepDrop cfg maxSlot slots) = totalPending slots := by
  constructor
  · intro slotKey slot present
    rw [sweepDrop_getElem?, Option.filter_eq_some_iff] at present
    exact tidy slotKey slot present.1
  · refine total_filter pendingSize fun slotKey slot present dropped => ?_
    simp only [Bool.or_eq_false_iff, Bool.not_eq_false'] at dropped
    rw [pendingSize, (tidy slotKey slot present).2 dropped.2, ExtTreeMap.size_empty]

theorem sweep_balance {state : State} (tidy : AllTidy state.slots) (now : Instant) :
    AllTidy (sweep cfg state now).1.slots ∧
      accounted (sweep cfg state now).2 + totalPending (sweep cfg state now).1.slots =
        totalPending state.slots := by
  obtain ⟨tidy', advanced⟩ := @sweepGaps_balance cfg _ tidy now
  obtain ⟨tidy'', ended⟩ := @sealSlots_balance cfg _ tidy' now
    (((sweepGaps cfg now state.slots).1.toList.filter fun entry =>
      due cfg state.maxSlot entry.1 && !entry.2.isSealed).map Prod.fst)
  obtain ⟨dropped, kept⟩ := @sweepDrop_balance cfg _ tidy'' state.maxSlot
  refine ⟨dropped, ?_⟩
  have same : totalPending (sweep cfg state now).1.slots = _ := kept
  rw [same, sweep, accounted_append]
  unfold sweepSeal
  dsimp only
  omega

/-- An entry is received and overwrites a buffered one. -/
def Overwritten (cfg : Config) (past : List Input) : Input → Prop
  | .receive merged _ =>
      Overwrites cfg (stateFound cfg merged.observation.slot past) merged
  | .sweep _ | .shutdown _ => False

instance (past : List Input) (input : Input) : Decidable (Overwritten cfg past input) := by
  cases input <;> unfold Overwritten <;> infer_instance

theorem receive_balance {past : List Input} (tidy : AllTidy (run cfg past).1.slots)
    (merged : MergedEntry) (now : Instant) :
    AllTidy (receive cfg (run cfg past).1 merged now).1.slots ∧
      accounted (receive cfg (run cfg past).1 merged now).2 +
          totalPending (receive cfg (run cfg past).1 merged now).1.slots +
          (if Overwritten cfg past (.receive merged now) then 1 else 0) =
        totalPending (run cfg past).1.slots + 1 := by
  have held : Tidy merged.observation.slot (stateFound cfg merged.observation.slot past) := by
    rw [stateFound]
    cases present : (run cfg past).1.slots[merged.observation.slot]? with
    | none => exact ⟨initial_settled _, fun closed => by cases closed⟩
    | some slot => exact tidy _ slot present
  have belongs : (SlotInput.arrive merged now).BelongsTo merged.observation.slot := by
    rintro _ _ ⟨⟩
    rfl
  have balanced := @slotStep_balance cfg _ _ held.1 (.arrive merged now)
  have before : totalPending (run cfg past).1.slots =
      pendingSize (stateFound cfg merged.observation.slot past) +
        total pendingSize ((run cfg past).1.slots.erase merged.observation.slot) := by
    rw [totalPending, total_eq_add_erase pendingSize _ merged.observation.slot, stateFound]
    cases (run cfg past).1.slots[merged.observation.slot]? <;> rfl
  have overwrites : (if Overwritten cfg past (.receive merged now) then 1 else 0) =
      overwriteCount cfg (stateFound cfg merged.observation.slot past)
        (some (.arrive merged now)) := if_congr Iff.rfl rfl rfl
  constructor
  · intro slotKey slot present
    rw [receive_getElem?] at present
    split at present
    · next own =>
      subst own
      cases present
      exact ⟨slotStep_settled held.1 belongs, slotStep_sealedEmpty held.1.quiet held.2 _⟩
    · exact tidy slotKey slot present
  · have after : totalPending (receive cfg (run cfg past).1 merged now).1.slots =
        pendingSize (slotStep cfg merged.observation.slot
          (stateFound cfg merged.observation.slot past) (.arrive merged now)).1 +
        total pendingSize ((run cfg past).1.slots.erase merged.observation.slot) :=
      total_insert pendingSize _ _ _
    have effects : accounted (receive cfg (run cfg past).1 merged now).2 =
        accounted (slotStep cfg merged.observation.slot
          (stateFound cfg merged.observation.slot past) (.arrive merged now)).2 := rfl
    rw [after, effects, overwrites, before]
    simp only [arrivalCount] at balanced
    omega

/-- **An input accounts for the entry it brings and for what leaves the buffers.** -/
theorem step_balance {past : List Input} (tidy : AllTidy (run cfg past).1.slots) (input : Input) :
    AllTidy (step cfg (run cfg past).1 input).1.slots ∧
      accounted (step cfg (run cfg past).1 input).2 +
          totalPending (step cfg (run cfg past).1 input).1.slots +
          (if Overwritten cfg past input then 1 else 0) =
        totalPending (run cfg past).1.slots + (received [input]).length := by
  cases input with
  | receive merged now => exact receive_balance tidy merged now
  | sweep now => exact sweep_balance tidy now
  | shutdown now =>
    obtain ⟨tidy', swept⟩ := @sweep_balance cfg _ tidy now
    obtain ⟨tidy'', ended⟩ := @sealSlots_balance cfg _ tidy' now
      (sweep cfg (run cfg past).1 now).1.slots.keys
    refine ⟨tidy'', ?_⟩
    have none : ¬ Overwritten cfg past (.shutdown now) := id
    rw [if_neg none, step, shutdown, accounted_append]
    have silent : (received [.shutdown now]).length = 0 := rfl
    dsimp only
    omega

/-- **The arrivals are accounted for by the counters, the buffers and the entries that
were overwritten.** -/
theorem arrivals_balance (inputs : List Input) :
    AllTidy (run cfg inputs).1.slots ∧
      (received inputs).length =
        accounted (run cfg inputs).2 + totalPending (run cfg inputs).1.slots +
          countAfter (Overwritten cfg) inputs := by
  induction inputs using List.reverseRecOn with
  | nil =>
    refine ⟨fun slotKey slot present => ?_, ?_⟩
    · simp [run] at present
    · simp [received, run, totalPending, countAfter, countAfterFrom]
  | append_singleton past input ih =>
    obtain ⟨tidy, balanced⟩ := ih
    obtain ⟨tidy', stepped⟩ := @step_balance cfg _ tidy input
    have grown : run cfg (past ++ [input]) = ((step cfg (run cfg past).1 input).1,
        (run cfg past).2 ++ (step cfg (run cfg past).1 input).2) := runAll_concat ..
    rw [grown, countAfter_concat, accounted_append]
    refine ⟨tidy', ?_⟩
    have listed : received (past ++ [input]) = received past ++ received [input] := by
      simp [received]
    rw [listed, List.length_append]
    dsimp only
    omega

end AllSlots

/-! ## The conservation of arrivals -/

/-- The counters and the buffers add up to the arrivals. -/
def Conserved (cfg : Config) (inputs : List Input) : Prop :=
  (received inputs).length =
    counted .entriesEmittedImmediate (run cfg inputs).2 +
      counted .entriesEmittedReordered (run cfg inputs).2 +
      counted .duplicatesDropped (run cfg inputs).2 +
      counted .pendingDropsCapacity (run cfg inputs).2 +
      counted .lateArrivalsAfterSeal (run cfg inputs).2 +
      totalPending (run cfg inputs).1.slots

/-- **The counters and the buffers add up to the arrivals exactly when no arrival was
buffered at an index that was buffered already.** -/
theorem conserved_iff (cfg : Config) (inputs : List Input) :
    Conserved cfg inputs ↔ EachAfter (fun past input => ¬ Overwritten cfg past input) inputs := by
  obtain ⟨_, balanced⟩ := @arrivals_balance cfg inputs
  rw [← countAfter_eq_zero, Conserved]
  unfold accounted at balanced
  omega

/-- A second arrival of a buffered index is neither counted nor buffered beside the
first. -/
theorem bufferedTwice_lost :
    ¬ Conserved (Samples.cfgWith 50)
      [.receive (Samples.merged 100 5 10 0 1) 0, .receive (Samples.merged 100 5 10 0 1) 1] := by
  unfold Conserved
  decide +kernel

end SenderAnalysis.PohSupervisor

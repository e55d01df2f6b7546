import SenderAnalysis.Foundations.Traces
import SenderAnalysis.FanOut.Samples
import SenderAnalysis.FanOut.PohSupervisor.Incarnations

/-!
# The life cycle of a slot

The supervisor is meant to end every slot once: it promises one `slotComplete` or
one `slotIncomplete` for a slot, never both and never neither. Within one
incarnation of a slot this holds. The record that a slot was sealed is dropped
with its state, though, ten slots after the seal, and an entry that arrives later
still begins a second incarnation, which is ended by an event of its own.

`endsOnce_iff` says exactly when a slot is ended once: when none of its entries
arrives after its state was dropped.
-/

set_option autoImplicit false

namespace SenderAnalysis.PohSupervisor

open Std OrderedMap

/-- Exactly one terminal event, and no event after it. -/
def EndsOnce (events : List OrderedEvent) : Prop :=
  events.countP OrderedEvent.isTerminal = 1 ∧ events.getLast?.any OrderedEvent.isTerminal = true

instance (events : List OrderedEvent) : Decidable (EndsOnce events) :=
  inferInstanceAs (Decidable (_ ∧ _))

/-- No event is terminal. -/
def Unended (events : List OrderedEvent) : Prop := events.countP OrderedEvent.isTerminal = 0

/-! ## One incarnation -/

/-- An open slot has no terminal event, and a sealed one has ended once. -/
def EndsWithSeal (slot : PohSlot) (events : List OrderedEvent) : Prop :=
  if slot.isSealed then EndsOnce events else Unended events

theorem unended_concat {events : List OrderedEvent} {event : OrderedEvent}
    (unended : Unended events) (ordinary : event.isTerminal = false) :
    Unended (events ++ [event]) := by
  simpa [Unended, ordinary] using unended

theorem endsOnce_concat {events : List OrderedEvent} {event : OrderedEvent}
    (unended : Unended events) (terminal : event.isTerminal = true) :
    EndsOnce (events ++ [event]) := by
  unfold Unended at unended
  simp [EndsOnce, unended, terminal]

theorem Move.endsWithSeal {cfg : Config} {slotKey : Nat} {slot : PohSlot}
    {label : Option SlotInput} {result : PohSlot × List SupervisorEffect}
    {events : List OrderedEvent} (move : Move cfg slotKey slot label result)
    (ended : EndsWithSeal slot events) : EndsWithSeal result.1 (events ++ sent result.2) := by
  cases move with
  | afterSeal | advance | sealing => simpa using ended
  | refuse | late | buffer =>
    simp only [sent_fetchAdd, sent_fetchMax, sent_nil, List.append_nil]
    exact ended
  | emit merged now opened here =>
    have unended : Unended events := by simpa [EndsWithSeal, opened] using ended
    have still : (emitAtCursor slot merged now).1.isSealed = false := opened
    simp only [EndsWithSeal, still, Bool.false_eq_true, if_false]
    exact unended_concat unended rfl
  | pop now entry opened found =>
    have unended : Unended events := by simpa [EndsWithSeal, opened] using ended
    simp only [EndsWithSeal, emitPending_isSealed, opened, Bool.false_eq_true, if_false,
      sent_emitPending]
    exact unended_concat unended rfl
  | skip now first entry opened found gap =>
    have unended : Unended events := by simpa [EndsWithSeal, opened] using ended
    obtain ⟨waited, event⟩ := sent_emitMissing cfg slotKey slot now
    simp only [EndsWithSeal, emitMissing_isSealed, opened, Bool.false_eq_true, if_false, event]
    exact unended_concat unended rfl
  | close now opened emptied =>
    have unended : Unended events := by simpa [EndsWithSeal, opened] using ended
    simp only [EndsWithSeal, if_true, sent_closingEffects]
    refine endsOnce_concat unended ?_
    unfold terminalEvent
    split <;> rfl

/-- **An incarnation is ended once, with the seal.** -/
theorem slotRun_endsWithSeal (cfg : Config) (slotKey : Nat) (own : List SlotInput) :
    EndsWithSeal (slotRun cfg slotKey own).1 (incarnationEvents cfg slotKey own) := by
  refine @slotRun_induction cfg slotKey (fun _ slot effects => EndsWithSeal slot (sent effects))
    rfl ?_ own
  intro past slot effects label result ended _ _ move
  rw [sent_append]
  exact move.endsWithSeal ended

theorem slotRun_endsOnce {cfg : Config} {slotKey : Nat} {own : List SlotInput}
    (sealing : (slotRun cfg slotKey own).1.isSealed = true) :
    EndsOnce (incarnationEvents cfg slotKey own) := by
  simpa [EndsWithSeal, sealing] using slotRun_endsWithSeal cfg slotKey own

/-! ## How many incarnations there are -/

theorem length_arrive (history : History) (input : SlotInput) :
    (history.arrive input).incarnations.length =
      history.incarnations.length + if history.current.isSome then 0 else 1 := by
  cases held : history.current <;> simp [History.incarnations, History.arrive, held]

theorem length_reach (history : History) (inputs : List SlotInput) :
    (history.reach inputs).incarnations.length = history.incarnations.length := by
  cases held : history.current <;> simp [History.incarnations, History.reach, held]

theorem length_drop (history : History) :
    history.drop.incarnations.length = history.incarnations.length := by
  simp [History.incarnations, History.drop]

theorem length_sweepHistory (cfg : Config) (slotKey : Nat) (state : State) (now : Instant)
    (history : History) :
    (sweepHistory cfg slotKey state now history).incarnations.length =
      history.incarnations.length := by
  simp only [sweepHistory]
  split
  · exact length_reach history _
  · rw [length_drop, length_reach]

/-- The entry is of another slot, or the state of the slot is held, or no entry of
the slot was received before. -/
def NotRecreating (cfg : Config) (slotKey : Nat) (past : List Input) (input : Input) : Prop :=
  (input.arrivalAt? slotKey).isSome →
    (run cfg past).1.slots.contains slotKey = true ∨ past.filterMap (Input.arrivalAt? slotKey) = []

instance (cfg : Config) (slotKey : Nat) (past : List Input) (input : Input) :
    Decidable (NotRecreating cfg slotKey past input) := by
  unfold NotRecreating
  infer_instance

/-- No entry of the slot arrives after the state of the slot was dropped. -/
def NeverRecreated (cfg : Config) (slotKey : Nat) (inputs : List Input) : Prop :=
  EachAfter (NotRecreating cfg slotKey) inputs

theorem no_incarnations_iff (cfg : Config) (slotKey : Nat) (inputs : List Input) :
    incarnations cfg slotKey inputs = [] ↔ inputs.filterMap (Input.arrivalAt? slotKey) = [] := by
  rw [← arrivals_history cfg slotKey inputs]
  constructor
  · intro none
    have none' : (history cfg slotKey inputs).incarnations = [] := none
    simp [History.arrivals, none']
  · intro none
    rcases List.eq_nil_or_concat (incarnations cfg slotKey inputs) with empty | ⟨front, own, split⟩
    · exact empty
    · have member : own ∈ (history cfg slotKey inputs).incarnations := by
        rw [show (history cfg slotKey inputs).incarnations = front.concat own from split]
        simp
      obtain ⟨merged, now, rest, same⟩ :=
        ((tracked_run cfg slotKey inputs).proper own member).begun
      have listed : merged ∈ (history cfg slotKey inputs).arrivals := by
        refine List.mem_filterMap.mpr ⟨.arrive merged now, ?_, rfl⟩
        exact List.mem_flatten.mpr ⟨own, member, by simp [same]⟩
      rw [none] at listed
      cases listed

/-- **A slot has at most one incarnation exactly when it is never created
anew.** -/
theorem length_le_one_iff (cfg : Config) (slotKey : Nat) (inputs : List Input) :
    (incarnations cfg slotKey inputs).length ≤ 1 ↔ NeverRecreated cfg slotKey inputs := by
  induction inputs using List.reverseRecOn with
  | nil => simp [incarnations, history, historyFrom, History.incarnations, NeverRecreated,
      eachAfter_nil]
  | append_singleton past input ih =>
    unfold NeverRecreated at ih ⊢
    rw [eachAfter_concat, ← ih]
    unfold incarnations at ih ⊢
    rw [history_concat]
    cases input with
    | sweep now =>
      simp [historyStep, length_sweepHistory, NotRecreating, Input.arrivalAt?]
    | shutdown now =>
      simp [historyStep, length_reach, length_sweepHistory, NotRecreating, Input.arrivalAt?]
    | receive merged now =>
      by_cases same : merged.observation.slot = slotKey
      · have held := (tracked_run cfg slotKey past).held
        simp only [historyStep, same, if_true, length_arrive, NotRecreating, Input.arrivalAt?,
          Option.isSome_some, forall_const]
        have present : (run cfg past).1.slots.contains slotKey =
            (history cfg slotKey past).current.isSome := by
          rw [ExtTreeMap.contains_eq_isSome_getElem?, held, Option.isSome_map]
        have empty := no_incarnations_iff cfg slotKey past
        unfold incarnations at empty
        rw [present, ← empty, ← List.length_eq_zero_iff]
        cases (history cfg slotKey past).current.isSome with
        | true => simp
        | false =>
          simp only [Bool.false_eq_true, if_false, false_or]
          omega
      · simp [historyStep, same, NotRecreating, Input.arrivalAt?]

/-! ## Whole runs -/

/-- After the last flush every incarnation of a slot has been sealed. -/
theorem sealed_of_shutdown (cfg : Config) (slotKey : Nat) (inputs : List Input) (now : Instant)
    {own : List SlotInput} (member : own ∈ incarnations cfg slotKey (inputs ++ [.shutdown now])) :
    (slotRun cfg slotKey own).1.isSealed = true := by
  have tracked := tracked_run cfg slotKey (inputs ++ [.shutdown now])
  rcases List.mem_append.mp member with old | last
  · exact tracked.ended own old
  · rw [Option.mem_toList] at last
    have held := tracked.held
    rw [last, Option.map_some, run, runAll_concat] at held
    simp only [step] at held
    rw [shutdown_getElem?, Option.map_eq_some_iff] at held
    obtain ⟨before, _, same⟩ := held
    rw [← same]
    exact sealState_isSealed now

theorem countP_terminal {cfg : Config} {slotKey : Nat} {owns : List (List SlotInput)}
    (sealing : ∀ own ∈ owns, (slotRun cfg slotKey own).1.isSealed = true) :
    (owns.flatMap (incarnationEvents cfg slotKey)).countP OrderedEvent.isTerminal =
      owns.length := by
  induction owns with
  | nil => rfl
  | cons own rest ih =>
    have ended := (slotRun_endsOnce (sealing own (List.mem_cons_self ..))).1
    rw [List.flatMap_cons, List.countP_append, ended,
      ih fun later member => sealing later (List.mem_cons_of_mem _ member), List.length_cons]
    omega

/-- **A slot that received an entry is ended exactly once, with nothing after the
terminal event, exactly when none of its entries arrives after its state was
dropped.** -/
theorem endsOnce_iff (cfg : Config) (inputs : List Input) (now : Instant) (slotKey : Nat)
    (received : inputs.filterMap (Input.arrivalAt? slotKey) ≠ []) :
    EndsOnce ((events cfg (inputs ++ [.shutdown now])).filter
        fun event => event.slot == slotKey) ↔
      NeverRecreated cfg slotKey inputs := by
  have tracked := tracked_run cfg slotKey (inputs ++ [.shutdown now])
  have sealing := fun own => @sealed_of_shutdown cfg slotKey inputs now own
  have sameLength : (incarnations cfg slotKey (inputs ++ [.shutdown now])).length =
      (incarnations cfg slotKey inputs).length := by
    unfold incarnations
    rw [history_concat]
    simp [historyStep, length_reach, length_sweepHistory]
  have some? : (incarnations cfg slotKey inputs).length ≠ 0 := by
    rw [ne_eq, List.length_eq_zero_iff, no_incarnations_iff]
    exact received
  have emitted : (events cfg (inputs ++ [.shutdown now])).filter
      (fun event => event.slot == slotKey) =
      (incarnations cfg slotKey (inputs ++ [.shutdown now])).flatMap
        (incarnationEvents cfg slotKey) :=
    tracked.emitted
  rw [← length_le_one_iff, emitted]
  constructor
  · rintro ⟨once, _⟩
    rw [countP_terminal sealing] at once
    omega
  · intro single
    obtain ⟨own, alone⟩ := List.length_eq_one_iff.mp
      (show (incarnations cfg slotKey (inputs ++ [.shutdown now])).length = 1 by omega)
    rw [alone, List.flatMap_cons, List.flatMap_nil, List.append_nil]
    exact slotRun_endsOnce (sealing own (by simp [alone]))

open Samples in
/-- Slot 100 is sealed and dropped in one sweep, and its second entry comes late. -/
def lateInputs : List Input :=
  [.receive (merged 100 0 12500 0 1) 1, .receive (merged 120 0 12500 0 2) 2, .sweep 3,
    .receive (merged 100 1 12500 0 3) 4]

open Samples in
theorem lateInputs_endsTwice :
    lateInputs.filterMap (Input.arrivalAt? 100) ≠ [] ∧
      ¬ EndsOnce ((events (cfgWith 50000000) (lateInputs ++ [.shutdown 5])).filter
        fun event => event.slot == 100) := by
  decide +kernel

open Samples in
/-- The entries of slot 100 come before it is dropped, between those of other slots. -/
def promptInputs : List Input :=
  [.receive (merged 100 0 12500 0 1) 1, .receive (merged 101 0 12500 0 2) 2, .sweep 3,
    .receive (merged 100 1 12500 0 3) 4, .receive (merged 120 0 12500 0 4) 5, .sweep 6,
    .receive (merged 101 1 12500 0 5) 7]

open Samples in
/-- Without a late entry the slot is ended once. -/
theorem endsOnce_without_lateInput :
    EndsOnce ((events (cfgWith 50000000) (promptInputs ++ [.shutdown 8])).filter
      fun event => event.slot == 100) := by
  refine (endsOnce_iff (cfgWith 50000000) promptInputs 8 100 (by decide +kernel)).mpr ?_
  unfold NeverRecreated
  decide +kernel

end SenderAnalysis.PohSupervisor

import Mathlib.Data.List.TakeWhile
import SenderAnalysis.FanOut.Samples
import SenderAnalysis.Foundations.Effects
import SenderAnalysis.Foundations.Runs
import SenderAnalysis.Foundations.Traces

/-!
# The warmup gates

Between a source and the merger stands a gate that drops the slot in which the source
started, because only a part of that slot is observed. The first observation fixes
the startup slot. Until an observation of a later slot arrives, everything is
dropped; from then on everything is forwarded.

The same gate is written three times: without a counter in phase 3, with a counter
of the dropped observations in phase 2, and with several output channels in phase 1.
What they forward is one list (`forwarded_eq`): the observations from the first one
with a later slot on. Once the gate is open it does not look at the slot any more,
so an entry of the startup slot that arrives after an entry of a later slot passes.
-/

set_option autoImplicit false

namespace SenderAnalysis.WarmupGate

/-! ## The gates -/

inductive Counter where
  | dropped
deriving DecidableEq, Repr

/-- What a gate does: count what it drops, and offer observations to its output
channels, which are numbered. -/
abbrev GateEffect := Effect Counter (Nat × EntryObservation)

/-- The state of a gate. The first full slot is shared with the report. -/
structure Gate where
  startupSlot : Option Nat := none
  warm : Bool := false
  firstFullSlot : Nat := 0
deriving DecidableEq, Repr

/-- Offer an observation to every output channel. -/
def forward (outs : Nat) (obs : EntryObservation) : List GateEffect :=
  (List.range outs).map fun out => .trySend (out, obs)

/-- One observation at a gate that drops with some effects and has some output
channels. -/
def gateStep (drop : List GateEffect) (outs : Nat) (gate : Gate) (obs : EntryObservation) :
    Gate × List GateEffect :=
  if gate.warm then (gate, forward outs obs)
  else
    match gate.startupSlot with
    | none => ({ gate with startupSlot := some obs.slot }, drop)
    | some s0 =>
        if obs.slot ≤ s0 then (gate, drop)
        else ({ gate with warm := true, firstFullSlot := obs.slot }, forward outs obs)

/-- The gate of phase 3 does not count. -/
def Phase3Run.spawnWarmup : Gate → EntryObservation → Gate × List GateEffect :=
  gateStep [] 1

/-- The gate of phase 2 counts what it drops. -/
def Phase2Observe.spawnWarmup : Gate → EntryObservation → Gate × List GateEffect :=
  gateStep [.fetchAdd .dropped 1] 1

/-- The gate of phase 1 counts, and has several output channels. -/
def Phase1Observe.spawnWarmupFanout (outs : Nat) :
    Gate → EntryObservation → Gate × List GateEffect :=
  gateStep [.fetchAdd .dropped 1] outs

/-- What a gate offers, with the number of the channel. -/
def forwarded (gate : Gate → EntryObservation → Gate × List GateEffect)
    (observations : List EntryObservation) : List (Nat × EntryObservation) :=
  sent (runAll gate {} observations).2

/-! ## What is forwarded -/

/-- An observation on every output channel. -/
def copies (outs : Nat) (observations : List EntryObservation) : List (Nat × EntryObservation) :=
  observations.flatMap fun obs => (List.range outs).map fun out => (out, obs)

theorem sent_forward (outs : Nat) (obs : EntryObservation) :
    sent (forward outs obs) = (List.range outs).map fun out => (out, obs) := by
  simp [forward, sent, List.filterMap_map, Function.comp_def]

section Forwarding

variable {drop : List GateEffect} {outs : Nat} (silent : sent drop = [])

/-- A gate that is open forwards everything. -/
theorem sent_warm {gate : Gate} (warm : gate.warm = true) (observations : List EntryObservation) :
    sent (runAll (gateStep drop outs) gate observations).2 = copies outs observations := by
  induction observations with
  | nil => rfl
  | cons obs rest ih =>
    have step : gateStep drop outs gate obs = (gate, forward outs obs) := if_pos warm
    rw [runAll_cons, step, sent_append, sent_forward, ih]
    rfl

include silent in
/-- A gate that waits drops the observations up to the startup slot. -/
theorem sent_waiting {gate : Gate} {s0 : Nat} (cold : gate.warm = false)
    (started : gate.startupSlot = some s0) (observations : List EntryObservation) :
    sent (runAll (gateStep drop outs) gate observations).2 =
      copies outs (observations.dropWhile fun obs => obs.slot ≤ s0) := by
  induction observations with
  | nil => rfl
  | cons obs rest ih =>
    rw [runAll_cons, sent_append]
    by_cases early : obs.slot ≤ s0
    · have step : gateStep drop outs gate obs = (gate, drop) := by
        simp [gateStep, cold, started, early]
      rw [step, silent, List.nil_append, ih, List.dropWhile_cons_of_pos (by simpa using early)]
    · have step : gateStep drop outs gate obs =
          ({ gate with warm := true, firstFullSlot := obs.slot }, forward outs obs) := by
        simp [gateStep, cold, started, early]
      rw [step, sent_forward, sent_warm rfl, List.dropWhile_cons_of_neg (by simpa using early)]
      rfl

include silent in
/-- **What a gate forwards is the observations from the first one with a slot after the
startup slot on.** -/
theorem forwarded_eq (startup : EntryObservation) (rest : List EntryObservation) :
    forwarded (gateStep drop outs) (startup :: rest) =
      copies outs (rest.dropWhile fun obs => obs.slot ≤ startup.slot) := by
  have step : gateStep drop outs {} startup = ({ startupSlot := some startup.slot }, drop) := rfl
  rw [forwarded, runAll_cons, step, sent_append, silent, List.nil_append]
  exact sent_waiting silent rfl rfl rest

end Forwarding

/-! ## Holding the startup slot back -/

/-- Nothing of the startup slot or an earlier one is forwarded. -/
def HoldsBack (gate : Gate → EntryObservation → Gate × List GateEffect)
    (observations : List EntryObservation) : Prop :=
  ∀ startup ∈ observations.head?, ∀ offered ∈ forwarded gate observations,
    startup.slot < offered.2.slot

/-- No observation of the startup slot or an earlier one comes after an observation of
a later slot. -/
def NoStraggler (observations : List EntryObservation) : Prop :=
  EachAfter (fun past obs => ∀ startup ∈ past.head?,
    (∃ later ∈ past, startup.slot < later.slot) → startup.slot < obs.slot) observations

/-- What is left after a beginning is dropped fails the test exactly when nothing that
passes it stands behind something that fails it. -/
theorem forall_dropWhile_iff {α : Type} (test : α → Bool) (list : List α) :
    (∀ element ∈ list.dropWhile test, test element = false) ↔
      EachAfter (fun past element => (∃ other ∈ past, test other = false) → test element = false)
        list := by
  induction list using List.reverseRecOn with
  | nil => exact ⟨fun _ => eachAfter_nil _, fun _ => by simp⟩
  | append_singleton past last ih =>
    rw [eachAfter_concat, ← ih, List.dropWhile_append]
    by_cases fails : ∃ other ∈ past, test other = false
    · have left : past.dropWhile test ≠ [] := by
        rw [ne_eq, List.dropWhile_eq_nil_iff]
        simpa using fails
      simp [left, fails, or_imp, forall_and]
    · have all : past.dropWhile test = [] := by
        rw [List.dropWhile_eq_nil_iff]
        simpa using fails
      cases passes : test last <;> simp [all, fails, passes]

theorem forall_copies_iff (holds : EntryObservation → Prop) {outs : Nat}
    {observations : List EntryObservation} :
    (∀ offered ∈ copies outs observations, holds offered.2) ↔
      outs = 0 ∨ ∀ obs ∈ observations, holds obs := by
  simp only [copies, List.mem_flatMap, List.mem_map, List.mem_range]
  constructor
  · intro all
    refine Nat.eq_zero_or_pos outs |>.imp_right fun positive obs member => ?_
    exact all (0, obs) ⟨obs, member, 0, positive, rfl⟩
  · rintro (rfl | all) _ ⟨obs, member, out, inside, rfl⟩
    · exact absurd inside (Nat.not_lt_zero _)
    · exact all obs member

/-- A gate holds the startup slot back exactly when it has no output channel or there is
no straggler. -/
theorem gateStep_holdsBack_iff {drop : List GateEffect} (silent : sent drop = []) (outs : Nat)
    (observations : List EntryObservation) :
    HoldsBack (gateStep drop outs) observations ↔ outs = 0 ∨ NoStraggler observations := by
  cases observations with
  | nil => exact ⟨fun _ => .inr (eachAfter_nil _), fun _ _ first => by simp at first⟩
  | cons startup rest =>
    have held : HoldsBack (gateStep drop outs) (startup :: rest) ↔
        ∀ offered ∈ forwarded (gateStep drop outs) (startup :: rest),
          startup.slot < offered.2.slot := by
      simp [HoldsBack]
    have dropped := forall_dropWhile_iff (fun obs => obs.slot ≤ startup.slot) rest
    simp only [decide_eq_false_iff_not, Nat.not_le] at dropped
    rw [held, forwarded_eq silent,
      forall_copies_iff fun obs => startup.slot < obs.slot, dropped, NoStraggler,
      eachAfter_cons]
    simp

/-- **Each gate holds the startup slot back exactly when no observation of the startup
slot or an earlier one comes after an observation of a later slot.** The gate of phase 1
needs an output channel to forward anything at all. -/
theorem holdsBack_iff (observations : List EntryObservation) :
    (HoldsBack Phase3Run.spawnWarmup observations ↔ NoStraggler observations) ∧
      (HoldsBack Phase2Observe.spawnWarmup observations ↔ NoStraggler observations) ∧
      ∀ outs, HoldsBack (Phase1Observe.spawnWarmupFanout outs) observations ↔
        outs = 0 ∨ NoStraggler observations := by
  refine ⟨?_, ?_, fun outs => gateStep_holdsBack_iff rfl outs observations⟩
  · exact (gateStep_holdsBack_iff rfl 1 observations).trans (by simp)
  · exact (gateStep_holdsBack_iff rfl 1 observations).trans (by simp)

/-- An entry of the startup slot that arrives after the next slot began passes all
three gates. -/
theorem straggler_forwarded :
    ¬ HoldsBack Phase3Run.spawnWarmup
        [Samples.obs 100 7 10 0 1, Samples.obs 101 0 10 0 2, Samples.obs 100 8 10 0 3] ∧
      ¬ HoldsBack Phase2Observe.spawnWarmup
        [Samples.obs 100 7 10 0 1, Samples.obs 101 0 10 0 2, Samples.obs 100 8 10 0 3] ∧
      ¬ HoldsBack (Phase1Observe.spawnWarmupFanout 2)
        [Samples.obs 100 7 10 0 1, Samples.obs 101 0 10 0 2, Samples.obs 100 8 10 0 3] := by
  refine ⟨fun held => ?_, fun held => ?_, fun held => ?_⟩
  all_goals
    have passed := held (Samples.obs 100 7 10 0 1) rfl (0, Samples.obs 100 8 10 0 3)
      (by decide +kernel)
    exact absurd passed (by decide +kernel)

end SenderAnalysis.WarmupGate

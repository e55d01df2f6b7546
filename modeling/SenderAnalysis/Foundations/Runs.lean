import Mathlib.Data.List.Basic
import Mathlib.Data.List.Induction

/-!
# Runs and loops that emit outputs

A component of a pipeline is a step function: from a state and an input it
computes the next state and the outputs it hands on, in order. A run feeds a
list of inputs to the step function. A `for` loop over a list is a run too, with
the elements of the list as inputs.

A `while` loop has no list to consume. It is given by a body that answers
`none` where the loop breaks, and is run with a bound on the number of
iterations. When a variant decreases with every iteration and the bound is at
least its value, the loop ends where the body breaks (`runWhile_exit`), so the
bound is not part of the result.

Facts about runs are proved by induction from the right, with the last input
taken off (`runAll_concat`). Facts about loops are proved by a loop invariant
that sees the outputs so far (`runWhile_induction`).
-/

set_option autoImplicit false

namespace SenderAnalysis

variable {σ ι ω : Type*}

/-! ## Runs over a list of inputs -/

/-- Feed the inputs one after the other and collect the outputs in order. -/
def runAll (step : σ → ι → σ × List ω) : σ → List ι → σ × List ω
  | state, [] => (state, [])
  | state, input :: rest =>
      ((runAll step (step state input).1 rest).1,
        (step state input).2 ++ (runAll step (step state input).1 rest).2)

section Runs

variable (step : σ → ι → σ × List ω)

@[simp] theorem runAll_nil (state : σ) : runAll step state [] = (state, []) := rfl

theorem runAll_cons (state : σ) (input : ι) (rest : List ι) :
    runAll step state (input :: rest) =
      ((runAll step (step state input).1 rest).1,
        (step state input).2 ++ (runAll step (step state input).1 rest).2) := rfl

theorem runAll_append (state : σ) (first second : List ι) :
    runAll step state (first ++ second) =
      ((runAll step (runAll step state first).1 second).1,
        (runAll step state first).2 ++ (runAll step (runAll step state first).1 second).2) := by
  induction first generalizing state with
  | nil => rfl
  | cons input rest ih =>
    rw [List.cons_append, runAll_cons, ih, runAll_cons]
    simp only [List.append_assoc]

/-- The last input of a run acts on the state the earlier inputs lead to. -/
theorem runAll_concat (state : σ) (past : List ι) (input : ι) :
    runAll step state (past ++ [input]) =
      ((step (runAll step state past).1 input).1,
        (runAll step state past).2 ++ (step (runAll step state past).1 input).2) := by
  rw [runAll_append]
  simp [runAll_cons]

/-- Inputs may be translated before a run or during it. -/
theorem runAll_map {ι' : Type*} (translate : ι' → ι) (state : σ) (inputs : List ι') :
    runAll (fun current input => step current (translate input)) state inputs =
      runAll step state (inputs.map translate) := by
  induction inputs generalizing state with
  | nil => rfl
  | cons input rest ih => rw [List.map_cons, runAll_cons, runAll_cons, ih]

/-- The states of a run do not depend on what its steps hand on. -/
theorem runAll_fst_congr {ω' : Type*} {step : σ → ι → σ × List ω}
    {step' : σ → ι → σ × List ω'}
    (same : ∀ state input, (step state input).1 = (step' state input).1)
    (state : σ) (inputs : List ι) :
    (runAll step state inputs).1 = (runAll step' state inputs).1 := by
  induction inputs generalizing state with
  | nil => rfl
  | cons input rest ih => rw [runAll_cons, runAll_cons, ih, same]

variable {step}

/-- What every step preserves holds after every run. -/
theorem runAll_invariant {invariant : σ → Prop}
    (preserved : ∀ state input, invariant state → invariant (step state input).1)
    {state : σ} (start : invariant state) (inputs : List ι) :
    invariant (runAll step state inputs).1 := by
  induction inputs generalizing state with
  | nil => exact start
  | cons input rest ih => exact ih (preserved state input start)

/-- A relation between the state and the outputs so far holds after a run when it holds
at the start and every step preserves it. -/
theorem runAll_induction {motive : σ → List ω → Prop} {inputs : List ι}
    (preserved : ∀ state outputs, motive state outputs → ∀ input ∈ inputs,
      motive (step state input).1 (outputs ++ (step state input).2))
    {state : σ} (start : motive state []) :
    motive (runAll step state inputs).1 (runAll step state inputs).2 := by
  induction inputs using List.reverseRecOn with
  | nil => exact start
  | append_singleton past input ih =>
    rw [runAll_concat]
    refine preserved _ _ (ih ?_) input (by simp)
    exact fun state outputs holds other member =>
      preserved state outputs holds other (List.mem_append_left _ member)

/-- What every step preserves holds after a run, and what it then gives for every output
holds of all outputs. The steps may rely on the inputs being those of the run. -/
theorem runAll_outputs {invariant : σ → Prop} {good : ω → Prop} {inputs : List ι}
    (preserved : ∀ state, invariant state → ∀ input ∈ inputs,
      invariant (step state input).1 ∧ ∀ output ∈ (step state input).2, good output)
    {state : σ} (start : invariant state) :
    invariant (runAll step state inputs).1 ∧
      ∀ output ∈ (runAll step state inputs).2, good output := by
  induction inputs generalizing state with
  | nil => exact ⟨start, fun output absent => by cases absent⟩
  | cons input rest ih =>
    obtain ⟨still, first⟩ := preserved state start input (List.mem_cons_self ..)
    obtain ⟨last, more⟩ := ih
      (fun state holds input member => preserved state holds input (List.mem_cons_of_mem _ member))
      still
    rw [runAll_cons]
    exact ⟨last, fun output member => (List.mem_append.mp member).elim (first output) (more output)⟩

end Runs

/-! ## Loops with a body that may break -/

/-- Run the body until it breaks, at most `fuel` times. -/
def runWhile (body : σ → Option (σ × List ω)) : Nat → σ → σ × List ω
  | 0, state => (state, [])
  | fuel + 1, state =>
      match body state with
      | none => (state, [])
      | some (next, outputs) =>
          ((runWhile body fuel next).1, outputs ++ (runWhile body fuel next).2)

section Loops

variable {body : σ → Option (σ × List ω)}

/-- A relation between a state and the outputs so far, begun with the outputs of
what came before the loop. -/
theorem runWhile_induction_from {motive : σ → List ω → Prop}
    (preserved : ∀ state outputs next more, motive state outputs →
      body state = some (next, more) → motive next (outputs ++ more))
    {state : σ} {outputs : List ω} (start : motive state outputs) (fuel : Nat) :
    motive (runWhile body fuel state).1 (outputs ++ (runWhile body fuel state).2) := by
  induction fuel generalizing state outputs with
  | zero => simpa [runWhile] using start
  | succ fuel ih =>
    cases iteration : body state with
    | none => simpa [runWhile, iteration] using start
    | some result =>
      obtain ⟨next, more⟩ := result
      have continued := ih (preserved state outputs next more start iteration)
      simpa [runWhile, iteration, List.append_assoc] using continued

/-- A relation between a state and the outputs so far that every iteration
preserves holds where the loop ends. -/
theorem runWhile_induction {motive : σ → List ω → Prop}
    (preserved : ∀ state outputs next more, motive state outputs →
      body state = some (next, more) → motive next (outputs ++ more))
    {state : σ} (start : motive state []) (fuel : Nat) :
    motive (runWhile body fuel state).1 (runWhile body fuel state).2 := by
  simpa only [List.nil_append] using runWhile_induction_from preserved start fuel

/-- What every iteration preserves holds where the loop ends. -/
theorem runWhile_invariant {invariant : σ → Prop}
    (preserved : ∀ state next more, invariant state →
      body state = some (next, more) → invariant next)
    {state : σ} (start : invariant state) (fuel : Nat) :
    invariant (runWhile body fuel state).1 := by
  refine @runWhile_induction σ ω body (fun state _ => invariant state) ?_ state start fuel
  intro state _ next more holds iteration
  exact preserved state next more holds iteration

/-- **With a bound that covers the variant, the loop ends where its body
breaks.** -/
theorem runWhile_exit (variant : σ → Nat)
    (decreases : ∀ state next more, body state = some (next, more) →
      variant next < variant state)
    {state : σ} {fuel : Nat} (enough : variant state ≤ fuel) :
    body (runWhile body fuel state).1 = none := by
  induction fuel generalizing state with
  | zero =>
    cases iteration : body state with
    | none => simpa [runWhile] using iteration
    | some result =>
      obtain ⟨next, more⟩ := result
      have smaller := decreases state next more iteration
      omega
  | succ fuel ih =>
    cases iteration : body state with
    | none => simp [runWhile, iteration]
    | some result =>
      obtain ⟨next, more⟩ := result
      have smaller := decreases state next more iteration
      have covered : variant next ≤ fuel := by omega
      simpa [runWhile, iteration] using ih covered

/-- A loop whose body breaks at once does nothing. -/
theorem runWhile_of_break {state : σ} (breaks : body state = none) (fuel : Nat) :
    runWhile body fuel state = (state, []) := by
  cases fuel with
  | zero => rfl
  | succ fuel => simp [runWhile, breaks]

end Loops

-- The bounds on iterations are huge numbers; unification must not count them down.
attribute [irreducible] runWhile

end SenderAnalysis

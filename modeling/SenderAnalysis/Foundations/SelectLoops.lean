import SenderAnalysis.Foundations.Runs
import Mathlib.Data.List.Perm.Basic

/-!
# Loops that select from channels

A thread of a pipeline is often one loop over its channels. Each round it looks at
the stop flag, takes the next event of any channel that has one, and sweeps when it is
time to. Other threads enqueue events and set the flag at any moment, and a channel
is closed when its last sender is gone.

The scheduling is kept apart from the component. A run of the loop says which events
and sweeps the component is given, in order; what the component makes of them is a
run of its own over that list (`run_state`). No event is lost on the way: what was
enqueued was taken or is still queued (`run_perm`). Once the flag of a loop that
always heeds it is set, at most the event of the round under way is taken
(`stopped_length_le`).
-/

set_option autoImplicit false

namespace SenderAnalysis

/-- What a loop gives to its component: an event, with what is read when it is taken,
or a sweep. -/
inductive Taken (ε ρ : Type*) where
  | event (event : ε) (reading : ρ)
  | sweep (reading : ρ)
deriving DecidableEq, Repr

namespace Taken

variable {ε ρ : Type*}

def event? : Taken ε ρ → Option ε
  | event taken _ => some taken
  | sweep _ => none

/-- The events among what was taken. -/
def events (taken : List (Taken ε ρ)) : List ε := taken.filterMap event?

@[simp] theorem events_nil : events ([] : List (Taken ε ρ)) = [] := rfl

@[simp] theorem events_append (first second : List (Taken ε ρ)) :
    events (first ++ second) = events first ++ events second :=
  List.filterMap_append

@[simp] theorem events_event (taken : ε) (reading : ρ) (rest : List (Taken ε ρ)) :
    events (event taken reading :: rest) = taken :: events rest := rfl

@[simp] theorem events_sweep (reading : ρ) (rest : List (Taken ε ρ)) :
    events (sweep reading :: rest) = events rest := rfl

end Taken

/-- Take the first element that passes a test out of a list. -/
def takeFirst {ε : Type*} (test : ε → Bool) : List ε → Option (ε × List ε)
  | [] => none
  | head :: rest =>
      if test head then some (head, rest)
      else (takeFirst test rest).map fun found => (found.1, head :: found.2)

section TakeFirst

variable {ε : Type*} {test : ε → Bool} {queue rest : List ε} {first : ε}

theorem takeFirst_perm (found : takeFirst test queue = some (first, rest)) :
    (first :: rest).Perm queue := by
  induction queue generalizing rest with
  | nil => simp [takeFirst] at found
  | cons head tail ih =>
    by_cases passes : test head
    · simp only [takeFirst, passes, if_true, Option.some.injEq, Prod.mk.injEq] at found
      rw [found.1, found.2]
    · simp only [takeFirst, passes] at found
      obtain ⟨⟨_, _⟩, within, same⟩ := Option.map_eq_some_iff.mp found
      cases same
      exact (List.Perm.swap _ _ _).trans ((ih within).cons head)

theorem takeFirst_test (found : takeFirst test queue = some (first, rest)) : test first := by
  induction queue generalizing rest with
  | nil => simp [takeFirst] at found
  | cons head tail ih =>
    by_cases passes : test head
    · simp only [takeFirst, passes, if_true, Option.some.injEq, Prod.mk.injEq] at found
      rwa [← found.1]
    · simp only [takeFirst, passes] at found
      obtain ⟨⟨_, _⟩, within, same⟩ := Option.map_eq_some_iff.mp found
      cases same
      exact ih within

theorem takeFirst_none (absent : takeFirst test queue = none) :
    ∀ element ∈ queue, test element = false := by
  induction queue with
  | nil => simp
  | cons head tail ih =>
    by_cases passes : test head
    · simp [takeFirst, passes] at absent
    · simp only [takeFirst, passes, Bool.false_eq_true, if_false, Option.map_eq_none_iff]
        at absent
      intro element member
      rcases List.mem_cons.mp member with rfl | within
      · simpa using passes
      · exact ih absent element within

end TakeFirst

/-- A loop over channels: how it handles what it takes, when it heeds the stop flag,
and which channels end it when they are closed. -/
structure SelectLoop (σ χ ε ρ ω : Type*) where
  initial : σ
  channelOf : ε → χ
  handle : σ → Taken ε ρ → σ × List ω
  mayStop : σ → Bool
  hangsUp : χ → Bool

namespace SelectLoop

/-- Where the thread is in a round. -/
inductive Phase where
  | checking
  | selecting
  | sweeping
  | returned
deriving DecidableEq, Repr

/-- The thread, with the events that wait for it in the order of their arrival. -/
structure Thread (σ χ ε : Type*) where
  phase : Phase := .checking
  stop : Bool := false
  queued : List ε := []
  closed : List χ := []
  state : σ

/-- An act of the thread or of the threads around it. -/
inductive Act (χ ε ρ : Type*) where
  | enqueue (event : ε)
  | setStop
  | disconnect (channel : χ)
  | check
  | receive (channel : χ) (reading : ρ)
  | timeout
  | sweep (reading : ρ)
  | pass

variable {σ χ ε ρ ω : Type*} [DecidableEq χ] (loop : SelectLoop σ χ ε ρ ω)

/-- One act, and what the component is given. An act that is not possible does
nothing: a closed channel has no senders, each act of the thread belongs to one phase,
and the timeout needs that no channel is ready. -/
def act (thread : Thread σ χ ε) : Act χ ε ρ → Thread σ χ ε × List (Taken ε ρ)
  | .enqueue event =>
      if loop.channelOf event ∈ thread.closed then (thread, [])
      else ({ thread with queued := thread.queued ++ [event] }, [])
  | .setStop => ({ thread with stop := true }, [])
  | .disconnect channel => ({ thread with closed := channel :: thread.closed }, [])
  | .check =>
      match thread.phase with
      | .checking =>
          if thread.stop && loop.mayStop thread.state then
            ({ thread with phase := .returned }, [])
          else ({ thread with phase := .selecting }, [])
      | .selecting | .sweeping | .returned => (thread, [])
  | .receive channel reading =>
      match thread.phase with
      | .selecting =>
          match takeFirst (fun event => loop.channelOf event = channel) thread.queued with
          | some (event, rest) =>
              ({ thread with
                  phase := .sweeping
                  queued := rest
                  state := (loop.handle thread.state (.event event reading)).1 },
                [.event event reading])
          | none =>
              if channel ∈ thread.closed then
                ({ thread with
                    phase := if loop.hangsUp channel then .returned else .sweeping }, [])
              else (thread, [])
      | .checking | .sweeping | .returned => (thread, [])
  | .timeout =>
      match thread.phase with
      | .selecting =>
          if thread.queued.isEmpty && thread.closed.isEmpty then
            ({ thread with phase := .sweeping }, [])
          else (thread, [])
      | .checking | .sweeping | .returned => (thread, [])
  | .sweep reading =>
      match thread.phase with
      | .sweeping =>
          ({ thread with
              phase := .checking
              state := (loop.handle thread.state (.sweep reading)).1 }, [.sweep reading])
      | .checking | .selecting | .returned => (thread, [])
  | .pass =>
      match thread.phase with
      | .sweeping => ({ thread with phase := .checking }, [])
      | .checking | .selecting | .returned => (thread, [])

/-- The thread before its first round. -/
def start : Thread σ χ ε := { state := loop.initial }

/-- A run from the start. -/
def run (acts : List (Act χ ε ρ)) : Thread σ χ ε × List (Taken ε ρ) :=
  runAll loop.act loop.start acts

/-- The channels that are closed, and the event an act puts on an open one. -/
def accepts (closed : List χ) : Act χ ε ρ → List χ × List ε
  | .enqueue event => (closed, if loop.channelOf event ∈ closed then [] else [event])
  | .disconnect channel => (channel :: closed, [])
  | .setStop | .check | .receive _ _ | .timeout | .sweep _ | .pass => (closed, [])

/-- The events that were enqueued before their senders were gone. -/
def enqueued (acts : List (Act χ ε ρ)) : List ε := (runAll loop.accepts [] acts).2

variable {loop} {thread : Thread σ χ ε}

/-! ## What one act does -/

/-- The loop may leave: the flag is set and heeded at the start of a round, or a
channel that ends the loop is closed and empty. -/
def Leaves (loop : SelectLoop σ χ ε ρ ω) (thread : Thread σ χ ε) : Prop :=
  (thread.phase = .checking ∧ thread.stop = true ∧ loop.mayStop thread.state = true) ∨
    ∃ channel ∈ thread.closed, loop.hangsUp channel = true ∧
      ∀ event ∈ thread.queued, loop.channelOf event ≠ channel

/-- The three things an act can be: it gives the component nothing, or the next event
of a channel, or a sweep. -/
inductive Move (loop : SelectLoop σ χ ε ρ ω) (thread next : Thread σ χ ε) :
    List (Taken ε ρ) → List ε → Prop where
  | quiet (accepted : List ε) (state : next.state = thread.state)
      (queued : next.queued = thread.queued ++ accepted)
      (selects : next.phase = .selecting → thread.phase = .selecting ∨
        (thread.phase = .checking ∧ (thread.stop && loop.mayStop thread.state) = false))
      (stays : thread.phase = .returned → next.phase = .returned)
      (leaves : next.phase = .returned → thread.phase = .returned ∨ loop.Leaves thread) :
      Move loop thread next [] accepted
  | event (event : ε) (reading : ρ) (selecting : thread.phase = .selecting)
      (state : next.state = (loop.handle thread.state (.event event reading)).1)
      (phase : next.phase = .sweeping)
      (queued : takeFirst (fun other => loop.channelOf other = loop.channelOf event)
        thread.queued = some (event, next.queued)) :
      Move loop thread next [.event event reading] []
  | sweep (reading : ρ) (sweeping : thread.phase = .sweeping)
      (state : next.state = (loop.handle thread.state (.sweep reading)).1)
      (phase : next.phase = .checking) (queued : next.queued = thread.queued) :
      Move loop thread next [.sweep reading] []

/-- An act that leaves the thread as it was. -/
theorem Move.still : Move loop thread thread [] [] :=
  .quiet [] rfl (List.append_nil _).symm .inl id .inl

theorem act_move (thread : Thread σ χ ε) (a : Act χ ε ρ) :
    Move loop thread (loop.act thread a).1 (loop.act thread a).2
      (loop.accepts thread.closed a).2 := by
  obtain ⟨phase, stop, queued, closed, state⟩ := thread
  cases a with
  | enqueue event =>
    simp only [act, accepts]
    split
    · exact .still
    · exact .quiet [event] rfl rfl .inl id .inl
  | setStop => exact .quiet [] rfl (List.append_nil _).symm .inl id .inl
  | disconnect channel => exact .quiet [] rfl (List.append_nil _).symm .inl id .inl
  | check =>
    cases phase with
    | checking =>
      simp only [act]
      cases heeds : stop && loop.mayStop state with
      | true =>
        have facts := Bool.and_eq_true_iff.mp heeds
        exact .quiet [] rfl (List.append_nil _).symm (by simp) (by simp)
          fun _ => .inr (.inl ⟨rfl, facts⟩)
      | false =>
        exact .quiet [] rfl (List.append_nil _).symm (fun _ => .inr ⟨rfl, heeds⟩) (by simp)
          (by simp)
    | selecting | sweeping | returned => exact .still
  | receive channel reading =>
    cases phase with
    | selecting =>
      simp only [act]
      cases found : takeFirst (fun event => decide (loop.channelOf event = channel)) queued with
      | some result =>
        obtain ⟨event, rest⟩ := result
        have here : loop.channelOf event = channel := by simpa using takeFirst_test found
        subst here
        exact .event event reading rfl rfl rfl found
      | none =>
        by_cases gone : channel ∈ closed
        · have none' := takeFirst_none found
          simp only [gone, if_true]
          refine .quiet [] rfl (List.append_nil _).symm (fun same => ?_) (by simp) fun ends => ?_
          · split at same <;> cases same
          · refine .inr (.inr ⟨channel, gone, ?_, fun event member => ?_⟩)
            · split at ends
              · assumption
              · cases ends
            · simpa using none' event member
        · simp only [gone, if_false]
          exact .still
    | checking | sweeping | returned => exact .still
  | timeout =>
    cases phase with
    | selecting =>
      simp only [act]
      split
      · exact .quiet [] rfl (List.append_nil _).symm (by simp) (by simp) (by simp)
      · exact .still
    | checking | sweeping | returned => exact .still
  | sweep reading =>
    cases phase with
    | sweeping => exact .sweep reading rfl rfl rfl rfl
    | checking | selecting | returned => exact .still
  | pass =>
    cases phase with
    | sweeping =>
      simp only [act]
      exact .quiet [] rfl (List.append_nil _).symm (by simp) (by simp) (by simp)
    | checking | selecting | returned => exact .still

/-- Only a disconnection closes a channel, and the flag is never reset. -/
theorem act_flags (thread : Thread σ χ ε) (a : Act χ ε ρ) :
    (loop.act thread a).1.closed = (loop.accepts thread.closed a).1 ∧
      (thread.stop = true → (loop.act thread a).1.stop = true) := by
  cases a with
  | enqueue event =>
    simp only [act]
    split <;> exact ⟨rfl, id⟩
  | setStop => exact ⟨rfl, fun _ => rfl⟩
  | disconnect => exact ⟨rfl, id⟩
  | check =>
    simp only [act]
    split
    · split <;> exact ⟨rfl, id⟩
    all_goals exact ⟨rfl, id⟩
  | receive channel reading =>
    simp only [act]
    split
    · split
      · exact ⟨rfl, id⟩
      · split <;> exact ⟨rfl, id⟩
    all_goals exact ⟨rfl, id⟩
  | timeout =>
    simp only [act]
    split
    · split <;> exact ⟨rfl, id⟩
    all_goals exact ⟨rfl, id⟩
  | sweep | pass =>
    simp only [act]
    split <;> exact ⟨rfl, id⟩

/-! ## Runs -/

/-- **The state is what the component makes of what it was given.** -/
theorem runAll_state (acts : List (Act χ ε ρ)) :
    (runAll loop.act thread acts).1.state =
      (runAll loop.handle thread.state (runAll loop.act thread acts).2).1 := by
  induction acts generalizing thread with
  | nil => rfl
  | cons a rest ih =>
    rw [runAll_cons]
    have move := @act_move _ _ _ _ _ _ loop thread a
    revert move
    generalize (loop.act thread a).1 = next
    generalize (loop.act thread a).2 = taken
    generalize (loop.accepts thread.closed a).2 = accepted
    intro move
    cases move with
    | quiet _ state => rw [ih, state, List.nil_append]
    | event event reading _ state => rw [ih, state, List.singleton_append, runAll_cons]
    | sweep reading _ state => rw [ih, state, List.singleton_append, runAll_cons]

theorem run_state (acts : List (Act χ ε ρ)) :
    (loop.run acts).1.state = (runAll loop.handle loop.initial (loop.run acts).2).1 :=
  runAll_state acts

/-- **What was enqueued was taken or is queued.** -/
theorem runAll_perm (acts : List (Act χ ε ρ)) :
    (Taken.events (runAll loop.act thread acts).2 ++
        (runAll loop.act thread acts).1.queued).Perm
      (thread.queued ++ (runAll loop.accepts thread.closed acts).2) := by
  induction acts generalizing thread with
  | nil => simp
  | cons a rest ih =>
    have later := @ih (loop.act thread a).1
    rw [(act_flags thread a).1] at later
    rw [runAll_cons, runAll_cons]
    simp only [Taken.events_append, List.append_assoc]
    refine (later.append_left _).trans ?_
    have move := @act_move _ _ _ _ _ _ loop thread a
    revert move
    generalize (loop.act thread a).1 = next
    generalize (loop.act thread a).2 = taken
    generalize (loop.accepts thread.closed a).2 = accepted
    intro move
    cases move with
    | quiet _ _ queued => simp [queued]
    | event event reading _ _ _ found => simpa using (takeFirst_perm found).append_right _
    | sweep _ _ _ _ queued => simp [queued]

theorem run_perm (acts : List (Act χ ε ρ)) :
    (Taken.events (loop.run acts).2 ++ (loop.run acts).1.queued).Perm (loop.enqueued acts) :=
  runAll_perm acts

/-- A thread that has returned takes nothing any more, and what is enqueued stays
queued. -/
theorem runAll_returned (returned : thread.phase = .returned) (acts : List (Act χ ε ρ)) :
    (runAll loop.act thread acts).1.phase = .returned ∧
      (runAll loop.act thread acts).2 = [] ∧
      (runAll loop.act thread acts).1.queued =
        thread.queued ++ (runAll loop.accepts thread.closed acts).2 := by
  induction acts generalizing thread with
  | nil => simpa using returned
  | cons a rest ih =>
    have flags := (@act_flags _ _ _ _ _ _ loop thread a).1
    have move := @act_move _ _ _ _ _ _ loop thread a
    rw [runAll_cons, runAll_cons]
    revert flags move
    generalize (loop.act thread a).1 = next
    generalize (loop.act thread a).2 = taken
    generalize (loop.accepts thread.closed a).1 = closed
    generalize (loop.accepts thread.closed a).2 = accepted
    intro flags move
    cases move with
    | quiet _ _ queued _ stays =>
      obtain ⟨phase, nothing, later⟩ := ih (stays returned)
      exact ⟨phase, by simp [nothing], by rw [later, queued, flags, List.append_assoc]⟩
    | event _ _ selecting => simp [returned] at selecting
    | sweep _ sweeping => simp [returned] at sweeping

/-- **Once the flag of a loop that always heeds it is set, at most the event of the
round under way is taken.** -/
theorem stopped_length_le (heeds : ∀ state, loop.mayStop state = true)
    (stop : thread.stop = true) (acts : List (Act χ ε ρ)) :
    (Taken.events (runAll loop.act thread acts).2).length ≤
      if thread.phase = .selecting then 1 else 0 := by
  induction acts generalizing thread with
  | nil => simp
  | cons a rest ih =>
    have later := ih ((@act_flags _ _ _ _ _ _ loop thread a).2 stop)
    have move := @act_move _ _ _ _ _ _ loop thread a
    rw [runAll_cons, Taken.events_append, List.length_append]
    revert later move
    generalize (loop.act thread a).1 = next
    generalize (loop.act thread a).2 = taken
    generalize (loop.accepts thread.closed a).2 = accepted
    intro later move
    cases move with
    | quiet _ _ _ selects =>
      have onlyThen : next.phase = .selecting → thread.phase = .selecting := by
        intro phase
        rcases selects phase with same | ⟨_, unheeded⟩
        · exact same
        · simp [stop, heeds] at unheeded
      by_cases phase : next.phase = .selecting
      · simpa [phase, onlyThen phase] using later
      · rw [if_neg phase] at later
        simp only [Taken.events_nil, List.length_nil]
        omega
    | event event reading selecting _ phase =>
      rw [phase] at later
      simp only [reduceCtorEq, if_false] at later
      simp only [selecting, if_true, Taken.events_event, Taken.events_nil, List.length_cons,
        List.length_nil]
      omega
    | sweep _ _ _ phase =>
      rw [phase] at later
      simp only [reduceCtorEq, if_false] at later
      simp only [Taken.events_sweep, Taken.events_nil, List.length_nil]
      omega

theorem stopped_events_nil (heeds : ∀ state, loop.mayStop state = true)
    (stop : thread.stop = true) (idle : thread.phase ≠ .selecting) (acts : List (Act χ ε ρ)) :
    Taken.events (runAll loop.act thread acts).2 = [] := by
  have few := stopped_length_le heeds stop acts
  rw [if_neg idle] at few
  exact List.length_eq_zero_iff.mp (Nat.le_zero.mp few)

/-- After the flag is set only sweeps follow, but for one event that may come
first. -/
theorem stopped_taken (heeds : ∀ state, loop.mayStop state = true) (stop : thread.stop = true)
    (acts : List (Act χ ε ρ)) :
    ∃ sweeps, Taken.events sweeps = [] ∧
      ((runAll loop.act thread acts).2 = sweeps ∨
        ∃ event reading, (runAll loop.act thread acts).2 = .event event reading :: sweeps) := by
  induction acts generalizing thread with
  | nil => exact ⟨[], rfl, .inl rfl⟩
  | cons a rest ih =>
    have stop' := (@act_flags _ _ _ _ _ _ loop thread a).2 stop
    have move := @act_move _ _ _ _ _ _ loop thread a
    rw [runAll_cons]
    revert stop' move
    generalize (loop.act thread a).1 = next
    generalize (loop.act thread a).2 = taken
    generalize (loop.accepts thread.closed a).2 = accepted
    intro stop' move
    cases move with
    | quiet => exact ih stop'
    | event event reading _ _ phase =>
      have none' := stopped_events_nil heeds stop' (by simp [phase]) rest
      exact ⟨_, none', .inr ⟨event, reading, rfl⟩⟩
    | sweep reading _ _ phase =>
      have none' := stopped_events_nil heeds stop' (by simp [phase]) rest
      exact ⟨_, (Taken.events_sweep reading _).trans none', .inl rfl⟩

/-! ## How a loop ends -/

/-- A thread returns at the check of a flag it heeds, or from a channel that is closed
and empty, and accepts nothing in that act. -/
theorem act_returns {a : Act χ ε ρ} (running : thread.phase ≠ .returned)
    (returns : (loop.act thread a).1.phase = .returned) :
    ((a = .check ∧ thread.phase = .checking ∧ thread.stop = true ∧
        loop.mayStop thread.state = true) ∨
      ∃ channel ∈ thread.closed, loop.hangsUp channel = true ∧
        ∀ event ∈ thread.queued, loop.channelOf event ≠ channel) ∧
    (loop.act thread a).1.queued = thread.queued ∧
    (loop.accepts thread.closed a).2 = [] := by
  cases a with
  | enqueue event =>
    simp only [act] at returns
    split at returns <;> exact absurd returns running
  | setStop | disconnect => exact absurd returns running
  | check =>
    simp only [act] at returns ⊢
    cases phase : thread.phase with
    | checking =>
      rw [phase] at returns
      simp only at returns ⊢
      cases heeds : thread.stop && loop.mayStop thread.state with
      | true => exact ⟨.inl ⟨trivial, trivial, Bool.and_eq_true_iff.mp heeds⟩, rfl, rfl⟩
      | false => simp [heeds] at returns
    | selecting | sweeping | returned => simp [phase] at returns running
  | receive channel reading =>
    simp only [act] at returns ⊢
    cases phase : thread.phase with
    | selecting =>
      rw [phase] at returns
      simp only at returns ⊢
      cases found : takeFirst (fun event => decide (loop.channelOf event = channel))
        thread.queued with
      | some result => simp [found] at returns
      | none =>
        by_cases gone : channel ∈ thread.closed
        · have none' := takeFirst_none found
          simp only [found, gone, if_true] at returns ⊢
          refine ⟨.inr ⟨channel, gone, ?_, fun event member => ?_⟩, trivial, rfl⟩
          · split at returns
            · assumption
            · cases returns
          · simpa using none' event member
        · simp [found, gone, phase] at returns
    | checking | sweeping | returned => simp [phase] at returns running
  | timeout =>
    simp only [act] at returns
    cases phase : thread.phase with
    | selecting =>
      simp only [phase] at returns
      split at returns <;> simp [phase] at returns
    | checking | sweeping | returned => simp [phase] at returns running
  | sweep | pass =>
    simp only [act] at returns
    cases phase : thread.phase <;> simp [phase] at returns running

/-- A run that has ended ended at one act. -/
theorem run_returned_split {acts : List (Act χ ε ρ)}
    (returned : (loop.run acts).1.phase = .returned) :
    ∃ before a after, acts = before ++ a :: after ∧ (loop.run before).1.phase ≠ .returned ∧
      (loop.act (loop.run before).1 a).1.phase = .returned := by
  induction acts using List.reverseRecOn with
  | nil => simp [run, start] at returned
  | append_singleton past last ih =>
    by_cases already : (loop.run past).1.phase = .returned
    · obtain ⟨before, a, after, split, running, ends⟩ := ih already
      exact ⟨before, a, after ++ [last], by simp [split], running, ends⟩
    · refine ⟨past, last, [], rfl, already, ?_⟩
      rwa [run, runAll_concat] at returned

/-- A closed channel accepts nothing more. -/
theorem accepts_of_closed {channel : χ} {closed : List χ} (gone : channel ∈ closed)
    (acts : List (Act χ ε ρ)) :
    ∀ event ∈ (runAll loop.accepts closed acts).2, loop.channelOf event ≠ channel := by
  induction acts generalizing closed with
  | nil => simp
  | cons a rest ih =>
    have still : channel ∈ (loop.accepts closed a).1 := by
      cases a <;> simp [accepts, gone]
    intro event member
    rw [runAll_cons] at member
    rcases List.mem_append.mp member with here | later
    · cases a with
      | enqueue other =>
        simp only [accepts] at here
        split at here
        · simp at here
        · next isOpen =>
          obtain rfl := List.mem_singleton.mp here
          exact fun same => isOpen (same ▸ gone)
      | setStop | disconnect | check | receive | timeout | sweep | pass => simp [accepts] at here
    · exact ih still event later

/-- What is queued in the end was queued where the loop ended or came later. -/
theorem run_ended_queued {before after : List (Act χ ε ρ)} {a : Act χ ε ρ}
    (running : (loop.run before).1.phase ≠ .returned)
    (ends : (loop.act (loop.run before).1 a).1.phase = .returned) :
    (loop.run (before ++ a :: after)).1.queued =
      (loop.run before).1.queued ++
        (runAll loop.accepts (loop.run before).1.closed (a :: after)).2 := by
  obtain ⟨_, queued, nothing⟩ := act_returns running ends
  obtain ⟨_, _, later⟩ := runAll_returned ends after
  have flags := (@act_flags _ _ _ _ _ _ loop (loop.run before).1 a).1
  rw [run, runAll_append, runAll_cons, runAll_cons, nothing, List.nil_append, ← flags, ← queued]
  exact later

end SelectLoop

end SenderAnalysis

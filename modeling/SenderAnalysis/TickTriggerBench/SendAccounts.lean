import SenderAnalysis.Foundations.Ledgers
import SenderAnalysis.TickTriggerBench.Finalizer.Conservation
import SenderAnalysis.TickTriggerBench.SendFlow

/-!
# The accounts of the sends

A send is known by its signature, its scheduled tick and the time it was triggered. Every
command the send queue accepted waits there, was dropped because its blockhash was old, or
was registered; every registered one is in flight, was lost when its report was refused, or
was reported; and every report waits, was received, or was abandoned when the finalizer
returned (`account_run`). The finalizer's own account (`Finalizer.Accounted`) goes on from
there.

So in every interleaving in which no two commands share a signature, the sends are
accounted for from the tick to the final record (`sends_accounted`).
-/

set_option autoImplicit false

namespace SenderAnalysis.TickTriggerBench

/-- What a send is known by. -/
structure Origin where
  signature : Signature
  scheduleSlot : Nat
  scheduleTick : UInt8
  triggerObservedAt : Instant
deriving DecidableEq, Repr

def SendCommand.origin (cmd : SendCommand) : Origin :=
  ⟨cmd.tx.signature, cmd.scheduleSlot, cmd.scheduleTick, cmd.triggerObservedAt⟩

def SendEvent.origin (ev : SendEvent) : Origin :=
  ⟨ev.signature, ev.scheduleSlot, ev.scheduleTick, ev.triggerObservedAt⟩

namespace SendFlow

@[simp] theorem InFlight.sendEvent_origin (request : InFlight) (result : Except SendError String)
    (responseAt : Instant) :
    (request.sendEvent result responseAt).origin = request.cmd.origin := rfl

/-- What an event can say of a send. -/
inductive Stage where
  | commanded
  | sendQueueFull
  | blockhashExpired
  | registered
  | reported
  | sendEventQueueFull
  | received
  | abandoned
deriving DecidableEq, Repr

/-- The send that an event says something of. -/
def about : Stage → Event → Option Origin
  | .commanded, .offered (.trySend (.send cmd)) true => some cmd.origin
  | .sendQueueFull, .offered (.trySend (.send cmd)) false => some cmd.origin
  | .blockhashExpired, .blockhashExpired cmd => some cmd.origin
  | .registered, .registered cmd => some cmd.origin
  | .reported, .responded ev true => some ev.origin
  | .sendEventQueueFull, .responded ev false => some ev.origin
  | .received, .received ev => some ev.origin
  | .abandoned, .abandoned ev => some ev.origin
  | _, _ => none

/-- How often a send waits for the dispatcher. -/
def waiting (key : Origin) (state : State) : Nat :=
  (state.sendQueue.map SendCommand.origin).count key

/-- How often a send is in flight. -/
def flying (key : Origin) (state : State) : Nat :=
  (state.inFlight.map fun request => request.cmd.origin).count key

/-- How often a report waits for the finalizer. -/
def reporting (key : Origin) (state : State) : Nat :=
  (state.sendEvents.map SendEvent.origin).count key

/-- What the events say of a send, up to the finalizer. -/
structure Account (key : Origin) (state : State) (events : List Event) : Prop where
  commanded : times (about .commanded) key events =
    waiting key state + times (about .blockhashExpired) key events +
      times (about .registered) key events
  registered : times (about .registered) key events =
    flying key state + times (about .sendEventQueueFull) key events +
      times (about .reported) key events
  reported : times (about .reported) key events =
    reporting key state + times (about .received) key events +
      times (about .abandoned) key events

/-- What a step does to the account of a send. -/
structure Moves (key : Origin) (state : State) (result : State × List Event) : Prop where
  commanded : times (about .commanded) key result.2 + waiting key state =
    waiting key result.1 + times (about .blockhashExpired) key result.2 +
      times (about .registered) key result.2
  registered : times (about .registered) key result.2 + flying key state =
    flying key result.1 + times (about .sendEventQueueFull) key result.2 +
      times (about .reported) key result.2
  reported : times (about .reported) key result.2 + reporting key state =
    reporting key result.1 + times (about .received) key result.2 +
      times (about .abandoned) key result.2

theorem Account.step {key : Origin} {state : State} {events : List Event}
    {result : State × List Event} (account : Account key state events)
    (moves : Moves key state result) : Account key result.1 (events ++ result.2) := by
  obtain ⟨commanded, registered, reported⟩ := account
  obtain ⟨commanded', registered', reported'⟩ := moves
  constructor <;> simp only [times_append] <;> omega

section Steps

variable (key : Origin) (state : State)

/-- A step that leaves the queues and the requests in flight as they are. -/
theorem Moves.idle {state next : State} {events : List Event}
    (same : next.sendQueue = state.sendQueue ∧ next.inFlight = state.inFlight ∧
      next.sendEvents = state.sendEvents)
    (silent : ∀ stage, ∀ event ∈ events, about stage event = none) :
    Moves key state (next, events) := by
  obtain ⟨queue, flight, reports⟩ := same
  have none : ∀ stage, times (about stage) key events = 0 := fun stage =>
    times_eq_zero _ key (silent stage)
  constructor
  · simp [none, waiting, queue]
  · simp [none, flying, flight]
  · simp [none, reporting, reports]

/-- A step without events that leaves the queues and the requests in flight as they are. -/
theorem Moves.still {state next : State}
    (same : next.sendQueue = state.sendQueue ∧ next.inFlight = state.inFlight ∧
      next.sendEvents = state.sendEvents) : Moves key state (next, []) :=
  .idle key same fun _ _ absent => absurd absent List.not_mem_nil

/-- Errors are about no send. -/
theorem about_errorEvents (stage : Stage) (result : Except SendError String) :
    ∀ event ∈ errorEvents result, about stage event = none := by
  unfold errorEvents
  split <;> cases stage <;> simp [about]

/-- Annotations are about no send. -/
theorem about_annotate (stage : Stage) (batch : List Signature)
    (statuses : List (Option TransactionStatus)) :
    ∀ event ∈ annotate batch statuses, about stage event = none := by
  induction batch, statuses using annotate.induct with
  | case1 sig batch status statuses ih =>
    intro event member
    rcases List.mem_cons.mp member with rfl | later
    · cases stage <;> rfl
    · exact ih event later
  | case2 batch => cases stage <;> cases batch <;> simp [annotate, about]
  | case3 => simp [annotate]

theorem moves_offer {effect : Observer.ObserverEffect} {offers : List Observer.ObserverEffect}
    (accepted : Bool) :
    Moves key state
      (if accepted then accept { state with offers } effect else { state with offers },
        [.offered effect accepted]) := by
  cases effect with
  | trySend output =>
    cases output with
    | send cmd =>
      cases accepted with
      | false => constructor <;> simp [about, waiting, flying, reporting]
      | true =>
        constructor
        · simp [about, accept, waiting, List.count_cons]
          omega
        · simp [about, accept, flying]
        · simp [about, accept, reporting]
    | tick ev | matched ev =>
      cases accepted <;>
        exact .idle key ⟨rfl, rfl, rfl⟩ fun stage => by cases stage <;> simp [about]
  | fetchAdd | fetchMin | fetchMax =>
    cases accepted <;>
      exact .idle key ⟨rfl, rfl, rfl⟩ fun stage => by cases stage <;> simp [about]

/-- The reports that wait when the finalizer returns are abandoned. -/
theorem moves_hangUp :
    Moves key state ({ state with sendEvents := [], matchEvents := [], returned := true },
      state.sendEvents.map .abandoned) := by
  have silent : ∀ stage, stage ≠ .abandoned →
      times (about stage) key (state.sendEvents.map .abandoned) = 0 := by
    refine fun stage other => times_eq_zero _ key fun event member => ?_
    obtain ⟨ev, _, rfl⟩ := List.mem_map.mp member
    cases stage with
    | abandoned => exact (other rfl).elim
    | _ => rfl
  have abandoned : times (about .abandoned) key (state.sendEvents.map .abandoned) =
      reporting key state := by
    rw [times, List.filterMap_map, reporting, ← List.filterMap_eq_map]
    rfl
  constructor
  · simp [silent, waiting]
  · simp [silent, flying]
  · simp [silent, abandoned, reporting]

theorem moves_respond {index : Nat} {request : InFlight}
    (found : state.inFlight[index]? = some request) (result : Except SendError String)
    (responseAt : Instant) (accepted : Bool) :
    Moves key state
      ({ state with
          inFlight := state.inFlight.eraseIdx index
          sendEvents := if accepted then
            state.sendEvents ++ [request.sendEvent result responseAt] else state.sendEvents },
        errorEvents result ++ [.responded (request.sendEvent result responseAt) accepted]) := by
  have silent : ∀ stage, times (about stage) key (errorEvents result) = 0 := fun stage =>
    times_eq_zero _ key (about_errorEvents stage result)
  have requests : (state.inFlight.map fun other => other.cmd.origin).count key =
      ((state.inFlight.eraseIdx index).map fun other => other.cmd.origin).count key +
        if request.cmd.origin = key then 1 else 0 := by
    rw [← List.eraseIdx_map]
    exact count_eraseIdx key (by simp [found])
  cases accepted <;> constructor <;>
    simp [silent, about, waiting, flying, reporting, List.count_cons]
  all_goals omega

end Steps

/-- **Every step keeps the accounts up to the finalizer.** -/
theorem moves_step (key : Origin) (cfg : Config) (state : State) (input : Input) :
    Moves key state (step cfg state input) := by
  have does := does_step cfg state input
  generalize step cfg state input = result at does ⊢
  cases does with
  | still | pool | finalizeMatch | giveUp | ask => exact .still key ⟨rfl, rfl, rfl⟩
  | observe | lookUp =>
    exact .idle key ⟨rfl, rfl, rfl⟩ fun stage => by cases stage <;> simp [about]
  | hangUp idle => exact moves_hangUp key state
  | offer effect offers accepted next => exact moves_offer key state accepted
  | expire cmd sendQueue next =>
    constructor <;> simp [about, waiting, flying, reporting, next, List.count_cons]
  | register cmd sendQueue sendAt next room =>
    constructor <;> simp [about, waiting, flying, reporting, next, List.count_cons]
    all_goals omega
  | respond index request result responseAt accepted found taker =>
    exact moves_respond key state found result responseAt accepted
  | finalizeSend ev sendEvents now next idle =>
    constructor <;> simp [about, waiting, flying, reporting, next, List.count_cons]
  | emit effect emissions accepted next =>
    obtain ⟨pendingSigs, fallbackQueue, frame⟩ := perform_frame { state with emissions } effect
    exact frame ▸ .idle key ⟨rfl, rfl, rfl⟩ fun stage => by cases stage <;> simp [about]
  | answer statuses => exact .idle key ⟨rfl, rfl, rfl⟩ fun stage => about_annotate stage _ _
  | fail => exact .idle key ⟨rfl, rfl, rfl⟩ fun stage => by cases stage <;> simp [about]

/-- **Every command is accounted for up to the finalizer, in every interleaving.** -/
theorem account_run (cfg : Config) (inputs : List Input) (key : Origin) :
    Account key (run cfg inputs).1 (run cfg inputs).2 := by
  refine runAll_induction (fun state events account input _ => ?_) ⟨rfl, rfl, rfl⟩
  exact account.step (moves_step key cfg state input)

/-! ## The finalizer -/

/-- The send events the finalizer has taken. -/
def received (events : List Event) : List SendEvent :=
  events.filterMap fun
    | .received ev => some ev
    | _ => none

/-- What the finalizer has emitted. -/
def emitted (events : List Event) : List Finalizer.FinalizerEffect :=
  events.filterMap fun
    | .emitted effect _ => some effect
    | _ => none

@[simp] theorem received_nil : received [] = [] := rfl

@[simp] theorem emitted_nil : emitted [] = [] := rfl

@[simp] theorem emitted_received (ev : SendEvent) : emitted [.received ev] = [] := rfl

@[simp] theorem received_append (first second : List Event) :
    received (first ++ second) = received first ++ received second := List.filterMap_append

@[simp] theorem emitted_append (first second : List Event) :
    emitted (first ++ second) = emitted first ++ emitted second := List.filterMap_append

/-- Annotations say nothing of the finalizer. -/
theorem annotate_quiet (batch : List Signature) (statuses : List (Option TransactionStatus)) :
    received (annotate batch statuses) = [] ∧ emitted (annotate batch statuses) = [] := by
  induction batch, statuses using annotate.induct with
  | case1 sig batch status statuses ih => exact ih
  | case2 batch =>
    cases batch with
    | nil => exact ⟨rfl, rfl⟩
    | cons sig batch =>
      constructor <;> refine List.filterMap_eq_nil_iff.mpr fun event member => ?_
      all_goals
        obtain ⟨other, _, rfl⟩ := List.mem_map.mp member
        rfl
  | case3 => simp [annotate, received, emitted]

/-- Errors say nothing of the finalizer. -/
theorem errorEvents_quiet (result : Except SendError String) :
    received (errorEvents result) = [] ∧ emitted (errorEvents result) = [] := by
  unfold errorEvents
  split <;> exact ⟨rfl, rfl⟩

/-- What is abandoned was not received. -/
theorem abandoned_quiet (sendEvents : List SendEvent) :
    received (sendEvents.map .abandoned) = [] ∧ emitted (sendEvents.map .abandoned) = [] := by
  constructor <;> refine List.filterMap_eq_nil_iff.mpr fun event member => ?_
  all_goals
    obtain ⟨ev, _, rfl⟩ := List.mem_map.mp member
    rfl

/-- What a step does to the finalizer: it performs the next of what the finalizer emits, if
anything; or it takes a send event, takes a match event, or gives some sends up. -/
inductive Finalizes (state : State) : State × List Event → Prop where
  | quiet {next : State} {events : List Event} (same : next.finalizer = state.finalizer)
      (nothing : received events = [])
      (emits : emitted events ++ next.emissions = state.emissions) :
      Finalizes state (next, events)
  | send {next : State} (ev : SendEvent) (now : Instant) (idle : state.emissions = [])
      (handled : (next.finalizer, next.emissions) = Finalizer.handleSend state.finalizer ev now) :
      Finalizes state (next, [.received ev])
  | matched {next : State} (ev : MatchEvent) (idle : state.emissions = [])
      (handled : (next.finalizer, next.emissions) = Finalizer.handleMatch state.finalizer ev) :
      Finalizes state (next, [])
  | giveUp {next : State} (sigs : List Signature) (idle : state.emissions = [])
      (handled : (next.finalizer, next.emissions) =
        runAll Finalizer.giveUp state.finalizer sigs) :
      Finalizes state (next, [])

theorem finalizes_step (cfg : Config) (state : State) (input : Input) :
    Finalizes state (step cfg state input) := by
  have does := does_step cfg state input
  generalize step cfg state input = result at does ⊢
  cases does with
  | still | observe | lookUp | pool | ask | expire | register | fail => exact .quiet rfl rfl rfl
  | hangUp idle =>
    obtain ⟨nothing, silent⟩ := abandoned_quiet state.sendEvents
    exact .quiet rfl nothing (by rw [silent]; rfl)
  | offer effect offers accepted next =>
    obtain ⟨sendQueue, matchEvents, frame⟩ := accept_frame { state with offers } effect accepted
    exact frame ▸ .quiet rfl rfl rfl
  | respond index request result responseAt accepted found taker =>
    refine .quiet rfl ?_ ?_
    · rw [received_append, (errorEvents_quiet result).1]
      rfl
    · rw [emitted_append, (errorEvents_quiet result).2]
      rfl
  | finalizeSend ev sendEvents now next idle => exact .send ev now idle rfl
  | finalizeMatch ev matchEvents next idle => exact .matched ev idle rfl
  | giveUp sigs drained idle => exact .giveUp sigs idle rfl
  | emit effect emissions accepted next =>
    obtain ⟨pendingSigs, fallbackQueue, frame⟩ := perform_frame { state with emissions } effect
    exact frame ▸ .quiet rfl rfl next.symm
  | answer statuses =>
    obtain ⟨nothing, silent⟩ := annotate_quiet state.batch statuses
    exact .quiet rfl nothing (by rw [silent]; rfl)

/-- All that the finalizer has decided to emit. -/
def decided (state : State) (events : List Event) : List Finalizer.FinalizerEffect :=
  emitted events ++ state.emissions

/-- What every step of the finalizer keeps holds in every run: a relation between the send
events it has taken, its state, and what it has decided to emit. -/
theorem finalizer_induction
    {motive : List SendEvent → Finalizer.State → List Finalizer.FinalizerEffect → Prop}
    (start : motive [] {} [])
    (send : ∀ sends finalizer effects, motive sends finalizer effects → ∀ ev now,
      motive (sends ++ [ev]) (Finalizer.handleSend finalizer ev now).1
        (effects ++ (Finalizer.handleSend finalizer ev now).2))
    (matched : ∀ sends finalizer effects, motive sends finalizer effects → ∀ ev,
      motive sends (Finalizer.handleMatch finalizer ev).1
        (effects ++ (Finalizer.handleMatch finalizer ev).2))
    (giveUp : ∀ sends finalizer effects, motive sends finalizer effects → ∀ sigs,
      motive sends (runAll Finalizer.giveUp finalizer sigs).1
        (effects ++ (runAll Finalizer.giveUp finalizer sigs).2))
    (cfg : Config) (inputs : List Input) :
    motive (received (run cfg inputs).2) (run cfg inputs).1.finalizer
      (decided (run cfg inputs).1 (run cfg inputs).2) := by
  refine runAll_induction (motive := fun state events =>
    motive (received events) state.finalizer (decided state events)) ?_ ?_
  swap
  · exact start
  intro state events before input _
  have finalizes := finalizes_step cfg state input
  generalize step cfg state input = result at finalizes ⊢
  unfold decided at before ⊢
  rw [received_append, emitted_append]
  cases finalizes with
  | quiet same nothing emits =>
    rw [nothing, List.append_nil, same, List.append_assoc, emits]
    exact before
  | send ev now idle handled =>
    obtain ⟨finalizer, emissions⟩ := Prod.mk.inj handled
    rw [idle, List.append_nil] at before
    rw [finalizer, emissions, emitted_received, List.append_nil]
    exact send _ _ _ before ev now
  | matched ev idle handled =>
    obtain ⟨finalizer, emissions⟩ := Prod.mk.inj handled
    rw [idle, List.append_nil] at before
    rw [finalizer, emissions, emitted_nil, received_nil, List.append_nil, List.append_nil]
    exact matched _ _ _ before ev
  | giveUp sigs idle handled =>
    obtain ⟨finalizer, emissions⟩ := Prod.mk.inj handled
    rw [idle, List.append_nil] at before
    rw [finalizer, emissions, emitted_nil, received_nil, List.append_nil, List.append_nil]
    exact giveUp _ _ _ before sigs

/-- **What the finalizer has taken has a record or is pending**, when no two of the sends it
has taken share a signature. -/
theorem finalizer_accounted (cfg : Config) (inputs : List Input) :
    Finalizer.Distinct (received (run cfg inputs).2) →
      Finalizer.Accounted (received (run cfg inputs).2) (run cfg inputs).1.finalizer
        (decided (run cfg inputs).1 (run cfg inputs).2) := by
  refine finalizer_induction (motive := fun sends finalizer effects =>
    Finalizer.Distinct sends → Finalizer.Accounted sends finalizer effects) ?_ ?_ ?_ ?_ cfg inputs
  · exact fun _ => Finalizer.accounted_initial
  · intro sends finalizer effects before ev now distinct
    refine (before distinct.of_append.1).send (fun earlier among => ?_) now
    exact distinct.of_append.2 earlier among ev (List.mem_singleton_self ev)
  · exact fun sends finalizer effects before ev distinct => (before distinct).matched ev
  · exact fun sends finalizer effects before sigs distinct => (before distinct).giveUpAll sigs

end SendFlow

end SenderAnalysis.TickTriggerBench

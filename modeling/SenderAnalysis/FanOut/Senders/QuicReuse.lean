import SenderAnalysis.FanOut.Senders.QuicConnections
import Mathlib.Algebra.Ring.Nat

/-!
# How many connections a QUIC sender opens

A send opens a connection when it finds none alive in the slot. So a sender to which nothing
happens opens one, and uses it for all sends. A connection that is closed from outside costs
one more. A warm-up that fails costs the one it may have opened. A send that fails can cost
two: the one it failed on, and the one that stands in the slot when it clears it, which
another send may have opened in the meantime. A send that is refused by a reply costs none.
No interleaving costs more (`connections_le`).
-/

set_option autoImplicit false

namespace SenderAnalysis.QuicConnections

section Bounds

variable {π : Type*}

def Input.isClose : Input π → Bool
  | .close _ => true
  | .start _ | .advance _ _ => false

/-- The task failed, whether or not it has cleared the slot. -/
def Task.failed (task : Task π) : Bool :=
  match task.stage with
  | .clearing _ | .done (.failed _) => true
  | .done .success | .done .refused | .waiting | .connecting | .authenticating _ | .writing _
  | .finishing | .reading => false

/-- How many connections a task can have cost: its own, and for a send the one that is in the
slot when the send clears it. -/
def Task.cost (task : Task π) : Nat :=
  match task.stage with
  | .clearing _ => 1
  | .done (.failed _) => if task.payload.isSome then 2 else 1
  | .done .success | .done .refused | .waiting | .connecting | .authenticating _ | .writing _
  | .finishing | .reading => 0

def Task.failedSend (task : Task π) : Bool := task.payload.isSome && task.failed

def Task.failedWarmup (task : Task π) : Bool := task.payload.isNone && task.failed

/-- There is a connection for the next send, or it is being authenticated. -/
def Fresh (state : State π) : Prop :=
  ∃ conn, state.alive conn = true ∧
    (state.slot = some conn ∨ ∃ task ∈ state.tasks, task.stage = .authenticating conn)

/-- The cost of all sends. -/
def State.costs (state : State π) : Nat := (state.tasks.map Task.cost).sum

/-- The connections opened are bounded by those lost. -/
structure Bounded (closes : Nat) (state : State π) : Prop where
  dialing : state.locked = true → ∀ conn, state.slot = some conn → state.alive conn = false
  most : state.connections.length ≤ closes + state.costs + 1
  lost : ¬ Fresh state → state.connections.length ≤ closes + state.costs

theorem costs_turn {state next : State π} {task task' : Task π} {before after : List (Task π)}
    (turn : Turn state task before after) (tasks : next.tasks = before ++ task' :: after) :
    next.costs + task.cost = state.costs + task'.cost := by
  simp only [State.costs, tasks, turn, List.map_append, List.map_cons, List.sum_append,
    List.sum_cons]
  omega

theorem cost_of_open {task : Task π} (going : task.failed = false) : task.cost = 0 := by
  unfold Task.failed Task.cost at *
  split at going <;> simp_all

theorem cost_giveUp (task : Task π) : 1 ≤ task.giveUp.cost := by
  unfold Task.giveUp Task.cost
  cases task.payload <;> simp

/-- While a task holds the lock, no other does. -/
theorem Safe.alone {cfg : Config} {state : State π} (safe : Safe cfg state) {task : Task π}
    {before after : List (Task π)} (turn : Turn state task before after)
    (holds : task.stage.holdsLock = true) :
    (∀ other ∈ before, other.stage.holdsLock = false) ∧
      ∀ other ∈ after, other.stage.holdsLock = false := by
  have few := safe.exclusive
  rw [turn, List.countP_append, List.countP_cons, if_pos holds] at few
  have earlier : before.countP (fun other => other.stage.holdsLock) = 0 := by omega
  have later : after.countP (fun other => other.stage.holdsLock) = 0 := by omega
  exact ⟨fun other member => by simpa using List.countP_eq_zero.mp earlier other member,
    fun other member => by simpa using List.countP_eq_zero.mp later other member⟩

theorem Safe.holder {cfg : Config} {state : State π} (safe : Safe cfg state)
    {task other : Task π} {before after : List (Task π)} (turn : Turn state task before after)
    (holds : task.stage.holdsLock = true) (member : other ∈ state.tasks)
    (also : other.stage.holdsLock = true) : other = task := by
  obtain ⟨earlier, later⟩ := safe.alone turn holds
  rw [turn] at member
  by_contra differs
  have free : other.stage.holdsLock = false := by
    rcases List.mem_append.mp member with old | rest
    · exact earlier other old
    · exact later other ((List.mem_cons.mp rest).resolve_left differs)
  rw [also] at free
  cases free

theorem locked_of_turn {state : State π} {task : Task π} {before after : List (Task π)}
    (turn : Turn state task before after) (holds : task.stage.holdsLock = true) :
    state.locked = true := by
  rw [State.locked, List.any_eq_true]
  exact ⟨task, turn ▸ List.mem_append_right _ (List.mem_cons_self ..), holds⟩

theorem locked_turn {state next : State π} {task task' : Task π} {before after : List (Task π)}
    (turn : Turn state task before after) (tasks : next.tasks = before ++ task' :: after)
    (same : task'.stage.holdsLock = task.stage.holdsLock) : next.locked = state.locked := by
  simp only [State.locked, tasks, turn, List.any_append, List.any_cons, same]

/-- When the only holder lets go of the lock, it is free. -/
theorem unlocked_turn {cfg : Config} {state next : State π} (safe : Safe cfg state)
    {task task' : Task π} {before after : List (Task π)} (turn : Turn state task before after)
    (holds : task.stage.holdsLock = true) (tasks : next.tasks = before ++ task' :: after)
    (released : task'.stage.holdsLock = false) : next.locked = false := by
  obtain ⟨earlier, later⟩ := safe.alone turn holds
  rw [State.locked, tasks, List.any_eq_false]
  intro other member
  rcases List.mem_append.mp member with old | rest
  · simp [earlier other old]
  · rcases List.mem_cons.mp rest with rfl | old
    · simp [released]
    · simp [later other old]

/-! ## Which connections are alive -/

theorem alive_modify {state next : State π} {place : Nat} {change : Connection π → Connection π}
    (connections : next.connections = state.connections.modify place change)
    (same : ∀ connection, (change connection).closed = connection.closed) (conn : Nat) :
    next.alive conn = state.alive conn := by
  rw [State.alive, State.alive, connections, List.getElem?_modify]
  cases state.connections[conn]? with
  | none => rfl
  | some connection =>
    by_cases here : place = conn
    · simp [here, same]
    · simp [here]

theorem alive_of_close {state next : State π} {place : Nat}
    (connections : next.connections = state.connections.modify place fun connection =>
      { connection with closed := true }) {conn : Nat} (alive : next.alive conn = true) :
    state.alive conn = true := by
  rw [State.alive, connections, List.getElem?_modify] at alive
  rw [State.alive]
  cases present : state.connections[conn]? with
  | none => simp [present] at alive
  | some connection =>
    by_cases here : place = conn
    · simp [present, here] at alive
    · simpa [present, here] using alive

theorem alive_append {state next : State π} {more : List (Connection π)}
    (connections : next.connections = state.connections ++ more) {conn : Nat}
    (inside : conn < state.connections.length) : next.alive conn = state.alive conn := by
  rw [State.alive, State.alive, connections, List.getElem?_append_left inside]

theorem alive_new {state next : State π} {connection : Connection π}
    (connections : next.connections = state.connections ++ [connection])
    (opened : connection.closed = false) : next.alive state.connections.length = true := by
  rw [State.alive, connections]
  simp [opened]

/-! ## The bound -/

/-- A move of a task that neither holds nor frees a connection. -/
theorem Fresh.move {state next : State π} {task task' : Task π} {before after : List (Task π)}
    (turn : Turn state task before after) (tasks : next.tasks = before ++ task' :: after)
    (idle : ∀ conn, task.stage ≠ .authenticating conn) (slot : next.slot = state.slot)
    (alive : ∀ conn, next.alive conn = state.alive conn) (fresh : Fresh state) : Fresh next := by
  obtain ⟨conn, living, place⟩ := fresh
  refine ⟨conn, (alive conn).trans living, ?_⟩
  rcases place with inSlot | ⟨other, member, stage⟩
  · exact .inl (slot.trans inSlot)
  · refine .inr ⟨other, ?_, stage⟩
    rw [turn] at member
    rw [tasks]
    rcases List.mem_append.mp member with earlier | rest
    · exact List.mem_append_left _ earlier
    · rcases List.mem_cons.mp rest with rfl | later
      · exact (idle conn stage).elim
      · exact List.mem_append_right _ (List.mem_cons_of_mem _ later)

/-- A task that is not done moves on, with the connections and the slot as they were. -/
theorem Bounded.move {closes : Nat} {state next : State π} (bounded : Bounded closes state)
    {task task' : Task π} {before after : List (Task π)} (turn : Turn state task before after)
    (tasks : next.tasks = before ++ task' :: after) (going : task.failed = false)
    (length : next.connections.length = state.connections.length)
    (dialing : next.locked = true → ∀ conn, next.slot = some conn → next.alive conn = false)
    (lost : task'.cost = 0 → ¬ Fresh next → ¬ Fresh state) : Bounded closes next where
  dialing := dialing
  most := by
    have costs := costs_turn turn tasks
    have most := bounded.most
    rw [cost_of_open going] at costs
    omega
  lost := by
    intro notFresh
    have costs := costs_turn turn tasks
    have most := bounded.most
    rw [cost_of_open going] at costs
    by_cases free : task'.cost = 0
    · have less := bounded.lost (lost free notFresh)
      omega
    · omega

/-- A task that opens a connection, when there was none for the next send. -/
theorem bounded_opened {closes : Nat} {state next : State π} {task task' : Task π}
    {before after : List (Task π)} (turn : Turn state task before after)
    (tasks : next.tasks = before ++ task' :: after) (going : task.failed = false)
    {connection : Connection π}
    (connections : next.connections = state.connections ++ [connection])
    (few : state.connections.length ≤ closes + state.costs)
    (dialing : next.locked = true → ∀ conn, next.slot = some conn → next.alive conn = false)
    (fresh : Fresh next) : Bounded closes next where
  dialing := dialing
  most := by
    have costs := costs_turn turn tasks
    rw [cost_of_open going] at costs
    rw [connections, List.length_append, List.length_singleton]
    omega
  lost := fun notFresh => (notFresh fresh).elim

/-- While a task connects, there is no connection for the next send. -/
theorem notFresh_connecting {cfg : Config} {closes : Nat} {state : State π}
    (safe : Safe cfg state) (bounded : Bounded closes state) {task : Task π}
    {before after : List (Task π)} (turn : Turn state task before after)
    (stage : task.stage = .connecting) : ¬ Fresh state := by
  have holds : task.stage.holdsLock = true := by simp [stage, Stage.holdsLock]
  rintro ⟨conn, living, inSlot | ⟨greeting, member, greeted⟩⟩
  · rw [bounded.dialing (locked_of_turn turn holds) conn inSlot] at living
    cases living
  · rw [safe.holder turn holds member (by rw [greeted]; rfl), stage] at greeted
    cases greeted

theorem Bounded.giveUp {cfg : Config} {closes : Nat} {state : State π}
    (bounded : Bounded closes state) (safe : Safe cfg state) {task : Task π}
    {before after : List (Task π)} (turn : Turn state task before after)
    (holds : task.stage.holdsLock = true) :
    Bounded closes { state with tasks := before ++ task.giveUp :: after } := by
  have going : task.failed = false := by
    unfold Task.failed
    cases stage : task.stage with
    | done _ | clearing _ =>
      rw [stage] at holds
      cases holds
    | waiting | connecting | authenticating _ | writing _ | finishing | reading => rfl
  refine bounded.move turn rfl going rfl (fun locked => ?_) fun free => ?_
  · rw [unlocked_turn safe turn holds rfl (giveUp_unlocked task).1] at locked
    cases locked
  · have paid := cost_giveUp task
    omega

theorem bounded_step (cfg : Config) {state : State π} (safe : Safe cfg state) {closes : Nat}
    (bounded : Bounded closes state) (input : Input π) :
    Bounded (closes + if input.isClose then 1 else 0) (step cfg state input) := by
  have does := does_step cfg state input
  generalize step cfg state input = next at does
  cases does with
  | nothing _ _ => exact bounded
  | start payload =>
    have costs : State.costs { state with tasks := state.tasks ++ [{ payload }] } =
        state.costs := by
      simp [State.costs, Task.cost]
    refine ⟨fun locked => bounded.dialing ?_, costs ▸ bounded.most, fun notFresh =>
      costs ▸ bounded.lost fun fresh => notFresh ?_⟩
    · simpa [State.locked, Stage.holdsLock] using locked
    · obtain ⟨conn, living, inSlot | ⟨task, member, stage⟩⟩ := fresh
      · exact ⟨conn, living, .inl inSlot⟩
      · exact ⟨conn, living, .inr ⟨task, List.mem_append_left _ member, stage⟩⟩
  | close conn =>
    have most : (state.connections.modify conn fun connection =>
        { connection with closed := true }).length ≤ closes + 1 + state.costs := by
      have before := bounded.most
      rw [List.length_modify]
      omega
    refine ⟨fun locked other inSlot => ?_, Nat.le_succ_of_le most, fun _ => most⟩
    refine Bool.eq_false_iff.mpr fun alive => ?_
    have before := alive_of_close rfl alive
    rw [bounded.dialing locked other inSlot] at before
    cases before
  | reuse idx answer task before after conn turn stage inSlot alive =>
    refine bounded.move turn rfl (by simp [Task.failed, stage]) rfl (fun locked => ?_)
      (fun _ notFresh fresh => notFresh
        (fresh.move turn rfl (by simp [stage]) rfl fun _ => rfl))
    refine bounded.dialing ((locked_turn turn rfl ?_).symm.trans locked)
    rw [(reach_unlocked task conn).1, stage]
    rfl
  | dial idx answer task before after turn stage free lost =>
    exact bounded.move turn rfl (by simp [Task.failed, stage]) rfl (fun _ => lost)
      (fun _ notFresh fresh => notFresh
        (fresh.move turn rfl (by simp [stage]) rfl fun _ => rfl))
  | giveUp idx answer task before after turn holds => exact bounded.giveUp safe turn holds
  | greet idx answer task before after turn stage asks =>
    have holds : task.stage.holdsLock = true := by simp [stage, Stage.holdsLock]
    have few := bounded.lost (notFresh_connecting safe bounded turn stage)
    refine bounded_opened turn rfl (by simp [Task.failed, stage]) rfl few
      (fun locked other inSlot => ?_) ⟨_, alive_new rfl rfl, .inr ⟨_, List.mem_append_right _
        (List.mem_cons_self ..), rfl⟩⟩
    obtain ⟨connection, present, _⟩ := safe.slot other inSlot
    exact (alive_append rfl (List.getElem?_eq_some_iff.mp present).1).trans
      (bounded.dialing (locked_of_turn turn holds) other inSlot)
  | connect idx answer task before after turn stage asksNot =>
    have holds : task.stage.holdsLock = true := by simp [stage, Stage.holdsLock]
    have few := bounded.lost (notFresh_connecting safe bounded turn stage)
    refine bounded_opened turn rfl (by simp [Task.failed, stage]) rfl few (fun locked => ?_)
      ⟨_, alive_new rfl rfl, .inl rfl⟩
    rw [unlocked_turn safe turn holds rfl (reach_unlocked task _).1] at locked
    cases locked
  | accepted idx task before after conn turn stage =>
    have holds : task.stage.holdsLock = true := by simp [stage, Stage.holdsLock]
    have alive := fun other => @alive_modify _ state
      { connections := state.connections.modify conn fun connection =>
          { connection with authenticated := true }
        slot := some conn
        tasks := before ++ task.reach conn :: after } _ _ rfl (fun _ => rfl) other
    refine bounded.move turn rfl (by simp [Task.failed, stage]) (List.length_modify ..)
      (fun locked => ?_) (fun _ notFresh fresh => ?_)
    · rw [unlocked_turn safe turn holds rfl (reach_unlocked task conn).1] at locked
      cases locked
    · -- only the connection that is now in the slot can have been fresh
      obtain ⟨other, living, inSlot | ⟨greeting, member, greeted⟩⟩ := fresh
      · rw [bounded.dialing (locked_of_turn turn holds) other inSlot] at living
        cases living
      · rw [safe.holder turn holds member (by rw [greeted]; rfl), stage] at greeted
        obtain rfl := Stage.authenticating.inj greeted
        exact notFresh ⟨conn, (alive conn).trans living, .inl rfl⟩
  | wrote idx answer task before after conn turn stage alive =>
    have living := fun other => @alive_modify _ state { state with
      connections := state.connections.modify conn fun connection =>
        { connection with carried := connection.carried ++ task.payload.toList }
      tasks := before ++ { task with stage := .finishing } :: after } _ _ rfl (fun _ => rfl) other
    refine bounded.move turn rfl (by simp [Task.failed, stage]) (List.length_modify ..)
      (fun locked other inSlot => ?_) (fun _ notFresh fresh => notFresh
        (fresh.move turn rfl (by simp [stage]) rfl living))
    exact (living other).trans (bounded.dialing
      ((locked_turn turn rfl (by simp [stage, Stage.holdsLock])).symm.trans locked) other inSlot)
  | finish idx answer task before after turn stage =>
    refine bounded.move turn rfl (by simp [Task.failed, stage]) rfl (fun locked => ?_)
      (fun _ notFresh fresh => notFresh
        (fresh.move turn rfl (by simp [stage]) rfl fun _ => rfl))
    refine bounded.dialing ((locked_turn turn rfl ?_).symm.trans locked)
    rw [stage]
    cases cfg.replies <;> rfl
  | reply idx accepted task before after turn stage =>
    refine bounded.move turn rfl (by simp [Task.failed, stage]) rfl (fun locked => ?_)
      (fun _ notFresh fresh => notFresh
        (fresh.move turn rfl (by simp [stage]) rfl fun _ => rfl))
    refine bounded.dialing ((locked_turn turn rfl ?_).symm.trans locked)
    rw [stage]
    rfl
  | lose idx answer task before after written turn stage =>
    have sending : task.stage.holdsLock = false ∧ task.failed = false := by
      cases written with
      | true => rcases stage with stage | stage <;> simp [stage, Stage.holdsLock, Task.failed]
      | false =>
        obtain ⟨conn, stage⟩ := stage
        simp [stage, Stage.holdsLock, Task.failed]
    refine bounded.move turn rfl sending.2 rfl (fun locked => ?_)
      (fun free => by simp [Task.cost] at free)
    refine bounded.dialing ((locked_turn turn rfl ?_).symm.trans locked)
    exact sending.1.symm
  | clear idx answer task before after written turn stage free =>
    have costs := @costs_turn _ state { state with
      slot := none
      tasks := before ++ { task with stage := .done (.failed written) } :: after } _ _ _ _ turn rfl
    have most := bounded.most
    -- a send pays for the connection in the slot when it clears it
    have paid : state.costs + 1 = State.costs { state with
        slot := none
        tasks := before ++ { task with stage := .done (.failed written) } :: after } := by
      have sends := safe.sends task (turn ▸ List.mem_append_right _ (List.mem_cons_self ..))
        (by rw [stage]; rfl)
      have own : task.cost = 1 := by simp [Task.cost, stage]
      have more : ({ task with stage := .done (.failed written) } : Task π).cost = 2 := by
        simp [Task.cost, sends]
      omega
    exact ⟨fun _ _ inSlot => (by cases inSlot), by change state.connections.length ≤ _; omega,
      fun _ => by change state.connections.length ≤ _; omega⟩

theorem bounded_run (cfg : Config) (inputs : List (Input π)) :
    Bounded (inputs.countP Input.isClose) (run cfg inputs) := by
  induction inputs using List.reverseRecOn with
  | nil =>
    exact ⟨fun locked => (by cases locked), Nat.zero_le _, fun _ => Nat.zero_le _⟩
  | append_singleton past input ih =>
    rw [run_concat, List.countP_append, List.countP_singleton]
    exact bounded_step cfg (safe_run cfg past) ih input

theorem costs_le (state : State π) :
    state.costs ≤ 2 * state.tasks.countP Task.failedSend +
      state.tasks.countP Task.failedWarmup := by
  unfold State.costs
  induction state.tasks with
  | nil => exact Nat.le_refl _
  | cons task rest ih =>
    have own : task.cost ≤ (2 * if task.failedSend then 1 else 0) +
        if task.failedWarmup then 1 else 0 := by
      unfold Task.cost Task.failedSend Task.failedWarmup Task.failed
      cases task.payload <;> split <;> simp [*]
    rw [List.map_cons, List.sum_cons, List.countP_cons, List.countP_cons]
    omega

/-- **A sender opens one connection, one more for each that is closed from outside and for
each warm-up that fails, and two more for each send that fails**, at most, in every
interleaving. -/
theorem connections_le (cfg : Config) (inputs : List (Input π)) :
    (run cfg inputs).connections.length ≤
      1 + inputs.countP Input.isClose + (run cfg inputs).tasks.countP Task.failedWarmup +
        2 * (run cfg inputs).tasks.countP Task.failedSend := by
  have most := (bounded_run cfg inputs).most
  have paid := costs_le (run cfg inputs)
  omega

end Bounds

/-- A handshake is refused, another send opens a connection, and the first one clears it. -/
example :
    (run ⟨true, false⟩ ([.start (some 1), .start (some 2), .start (some 3), .advance 0 .ok,
      .advance 0 .ok, .advance 0 (.byte 1), .advance 1 .ok, .advance 1 .ok,
      .advance 1 (.byte 0), .advance 0 .ok, .advance 2 .ok, .advance 2 .ok] :
        List (Input Nat))).connections.length = 3 := by
  decide

/-- The handshake of the warm-up is refused, and a send opens a second connection. -/
example :
    (run ⟨true, false⟩ ([.start none, .advance 0 .ok, .advance 0 .ok, .advance 0 (.byte 1),
      .start (some 1), .advance 1 .ok, .advance 1 .ok, .advance 1 (.byte 0), .advance 1 .ok,
      .advance 1 .ok] : List (Input Nat))).connections.length = 2 := by
  decide

end SenderAnalysis.QuicConnections

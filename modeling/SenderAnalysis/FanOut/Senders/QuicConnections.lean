import SenderAnalysis.Foundations.Runs
import Mathlib.Data.List.Perm.Basic

/-!
# The connections of a QUIC sender

The sends of a QUIC sender share one connection, which stands in a slot behind a lock. A
send that finds it alive takes it and lets go of the lock. A send that does not opens a new
connection, which some providers authenticate by a handshake of its own, and puts it into the
slot, all under the lock. Then it writes its payload on a stream of the connection and
finishes the stream, as many sends at a time as there are. Some providers reply, and the send
reads the reply. A send that fails clears the slot, whatever is in it by then; one that is
refused by a reply leaves it. At the start a warm-up opens the connection in the same way and
writes nothing.

Any number of sends are under way, each at a stage of its own; an input takes one of them a
step further, starts one, or closes a connection from outside. The network decides how a step
turns out. In every interleaving, a payload is written on an authenticated connection only,
which was authenticated once, and the payloads written are those of the sends that reported
success and of those that wait for the end of their stream or for the reply, or failed there
(`payloads_accounted`).
-/

set_option autoImplicit false

namespace SenderAnalysis.QuicConnections

/-- The byte with which a provider accepts a handshake. -/
def authOk : UInt8 := 0

/-- What a provider does: it asks for a handshake on every connection, and it replies to
every payload. -/
structure Config where
  authenticates : Bool
  replies : Bool

/-- A connection: whether it was closed, how many handshakes were begun on it, whether one was
accepted, and the payloads that were written on it. -/
structure Connection (π : Type*) where
  closed : Bool := false
  handshakes : Nat := 0
  authenticated : Bool := false
  carried : List π := []
deriving DecidableEq

/-- What a send reports. A failed one may have written its payload before. -/
inductive Result where
  | success
  | refused
  | failed (written : Bool)
deriving DecidableEq

/-- How far a send is. It holds the lock while it connects and authenticates. -/
inductive Stage where
  | waiting
  | connecting
  | authenticating (conn : Nat)
  | writing (conn : Nat)
  | finishing
  | reading
  | clearing (written : Bool)
  | done (result : Result)
deriving DecidableEq

namespace Stage

def holdsLock : Stage → Bool
  | connecting | authenticating _ => true
  | waiting | writing _ | finishing | reading | clearing _ | done _ => false

/-- Only a send with a payload gets to this stage. -/
def ofSend : Stage → Bool
  | writing _ | finishing | reading | clearing _ => true
  | waiting | connecting | authenticating _ | done _ => false

end Stage

/-- A send with its payload, or a warm-up without one. -/
structure Task (π : Type*) where
  payload : Option π
  stage : Stage := .waiting
deriving DecidableEq

structure State (π : Type*) where
  connections : List (Connection π) := []
  slot : Option Nat := none
  tasks : List (Task π) := []

/-- How a step turns out: it fails, or it goes through, a handshake with the byte that comes
back, a payload with what the reply says. -/
inductive Answer where
  | failed
  | ok
  | byte (value : UInt8)
  | reply (accepted : Bool)
deriving DecidableEq

/-- What can happen: a send or a warm-up starts, one of them goes on, with the answer of the
network, or a connection is closed from outside. -/
inductive Input (π : Type*) where
  | start (payload : Option π)
  | advance (task : Nat) (answer : Answer)
  | close (conn : Nat)

section Steps

variable {π : Type*}

/-- Has the connection no reason to be closed? -/
def State.alive (state : State π) (conn : Nat) : Bool :=
  state.connections[conn]?.any fun connection => !connection.closed

def State.locked (state : State π) : Bool :=
  state.tasks.any fun task => task.stage.holdsLock

/-- The connection in the slot, if it is alive. -/
def State.reusable (state : State π) : Option Nat := state.slot.filter state.alive

/-- A send that has a connection writes on it, a warm-up is done. -/
def Task.reach (task : Task π) (conn : Nat) : Task π :=
  { task with stage := if task.payload.isSome then .writing conn else .done .success }

/-- A send that fails clears the slot, a warm-up leaves it. -/
def Task.giveUp (task : Task π) : Task π :=
  { task with stage := if task.payload.isSome then .clearing false else .done (.failed false) }

/-- One step of a send. -/
def advance (cfg : Config) (state : State π) (idx : Nat) (task : Task π) (answer : Answer) :
    State π :=
  let goTo := fun stage => state.tasks.set idx { task with stage }
  match task.stage with
  | .waiting =>
      if state.locked then state
      else
        match state.reusable with
        | some conn => { state with tasks := state.tasks.set idx (task.reach conn) }
        | none => { state with tasks := goTo .connecting }
  | .connecting =>
      let conn := state.connections.length
      if answer = .failed then { state with tasks := state.tasks.set idx task.giveUp }
      else if cfg.authenticates then
        { state with
          connections := state.connections ++ [{ handshakes := 1 }]
          tasks := goTo (.authenticating conn) }
      else
        { connections := state.connections ++ [{}]
          slot := some conn
          tasks := state.tasks.set idx (task.reach conn) }
  | .authenticating conn =>
      if answer = .byte authOk then
        { connections := state.connections.modify conn fun connection =>
            { connection with authenticated := true }
          slot := some conn
          tasks := state.tasks.set idx (task.reach conn) }
      else { state with tasks := state.tasks.set idx task.giveUp }
  | .writing conn =>
      if state.alive conn && answer ≠ .failed then
        { state with
          connections := state.connections.modify conn fun connection =>
            { connection with carried := connection.carried ++ task.payload.toList }
          tasks := goTo .finishing }
      else { state with tasks := goTo (.clearing false) }
  | .finishing =>
      if answer = .failed then { state with tasks := goTo (.clearing true) }
      else { state with tasks := goTo (if cfg.replies then .reading else .done .success) }
  | .reading =>
      match answer with
      | .reply accepted =>
          { state with tasks := goTo (.done (if accepted then .success else .refused)) }
      | .failed | .ok | .byte _ => { state with tasks := goTo (.clearing true) }
  | .clearing written =>
      if state.locked then state
      else { state with slot := none, tasks := goTo (.done (.failed written)) }
  | .done _ => state

def step (cfg : Config) (state : State π) : Input π → State π
  | .start payload => { state with tasks := state.tasks ++ [{ payload }] }
  | .advance idx answer =>
      match state.tasks[idx]? with
      | some task => advance cfg state idx task answer
      | none => state
  | .close conn =>
      { state with
        connections := state.connections.modify conn fun connection =>
          { connection with closed := true } }

def run (cfg : Config) (inputs : List (Input π)) : State π :=
  inputs.foldl (step cfg) {}

/-! ## What a step can do -/

/-- The task whose turn it is, among the others. -/
abbrev Turn (state : State π) (task : Task π) (before after : List (Task π)) : Prop :=
  state.tasks = before ++ task :: after

/-- What one step does. -/
inductive Does (cfg : Config) (state : State π) : Input π → State π → Prop where
  | nothing (idx : Nat) (answer : Answer) : Does cfg state (.advance idx answer) state
  | start (payload : Option π) :
      Does cfg state (.start payload) { state with tasks := state.tasks ++ [{ payload }] }
  | close (conn : Nat) :
      Does cfg state (.close conn) { state with
        connections := state.connections.modify conn fun connection =>
          { connection with closed := true } }
  | reuse (idx : Nat) (answer : Answer) (task : Task π) (before after : List (Task π))
      (conn : Nat) (turn : Turn state task before after) (stage : task.stage = .waiting)
      (inSlot : state.slot = some conn) (alive : state.alive conn = true) :
      Does cfg state (.advance idx answer)
        { state with tasks := before ++ task.reach conn :: after }
  | dial (idx : Nat) (answer : Answer) (task : Task π) (before after : List (Task π))
      (turn : Turn state task before after) (stage : task.stage = .waiting)
      (free : state.locked = false) (lost : ∀ conn, state.slot = some conn →
        state.alive conn = false) :
      Does cfg state (.advance idx answer)
        { state with tasks := before ++ { task with stage := .connecting } :: after }
  | giveUp (idx : Nat) (answer : Answer) (task : Task π) (before after : List (Task π))
      (turn : Turn state task before after) (holds : task.stage.holdsLock = true) :
      Does cfg state (.advance idx answer)
        { state with tasks := before ++ task.giveUp :: after }
  | greet (idx : Nat) (answer : Answer) (task : Task π) (before after : List (Task π))
      (turn : Turn state task before after) (stage : task.stage = .connecting)
      (asks : cfg.authenticates = true) :
      Does cfg state (.advance idx answer) { state with
        connections := state.connections ++ [{ handshakes := 1 }]
        tasks := before ++
          { task with stage := .authenticating state.connections.length } :: after }
  | connect (idx : Nat) (answer : Answer) (task : Task π) (before after : List (Task π))
      (turn : Turn state task before after) (stage : task.stage = .connecting)
      (asksNot : cfg.authenticates = false) :
      Does cfg state (.advance idx answer)
        { connections := state.connections ++ [{}]
          slot := some state.connections.length
          tasks := before ++ task.reach state.connections.length :: after }
  | accepted (idx : Nat) (task : Task π) (before after : List (Task π)) (conn : Nat)
      (turn : Turn state task before after) (stage : task.stage = .authenticating conn) :
      Does cfg state (.advance idx (.byte authOk))
        { connections := state.connections.modify conn fun connection =>
            { connection with authenticated := true }
          slot := some conn
          tasks := before ++ task.reach conn :: after }
  | wrote (idx : Nat) (answer : Answer) (task : Task π) (before after : List (Task π))
      (conn : Nat) (turn : Turn state task before after) (stage : task.stage = .writing conn)
      (alive : state.alive conn = true) :
      Does cfg state (.advance idx answer) { state with
        connections := state.connections.modify conn fun connection =>
          { connection with carried := connection.carried ++ task.payload.toList }
        tasks := before ++ { task with stage := .finishing } :: after }
  | finish (idx : Nat) (answer : Answer) (task : Task π) (before after : List (Task π))
      (turn : Turn state task before after) (stage : task.stage = .finishing) :
      Does cfg state (.advance idx answer) { state with
        tasks := before ++
          { task with stage := if cfg.replies then .reading else .done .success } :: after }
  | reply (idx : Nat) (accepted : Bool) (task : Task π) (before after : List (Task π))
      (turn : Turn state task before after) (stage : task.stage = .reading) :
      Does cfg state (.advance idx (.reply accepted)) { state with
        tasks := before ++
          { task with stage := .done (if accepted then .success else .refused) } :: after }
  | lose (idx : Nat) (answer : Answer) (task : Task π) (before after : List (Task π))
      (written : Bool) (turn : Turn state task before after)
      (stage : if written then task.stage = .finishing ∨ task.stage = .reading
        else ∃ conn, task.stage = .writing conn) :
      Does cfg state (.advance idx answer)
        { state with tasks := before ++ { task with stage := .clearing written } :: after }
  | clear (idx : Nat) (answer : Answer) (task : Task π) (before after : List (Task π))
      (written : Bool) (turn : Turn state task before after)
      (stage : task.stage = .clearing written) (free : state.locked = false) :
      Does cfg state (.advance idx answer) { state with
        slot := none
        tasks := before ++ { task with stage := .done (.failed written) } :: after }

theorem reusable_eq_some {state : State π} {conn : Nat} (found : state.reusable = some conn) :
    state.slot = some conn ∧ state.alive conn = true :=
  Option.filter_eq_some_iff.mp found

theorem reusable_eq_none {state : State π} (missing : state.reusable = none) (conn : Nat)
    (inSlot : state.slot = some conn) : state.alive conn = false := by
  unfold State.reusable at missing
  rw [inSlot] at missing
  cases alive : state.alive conn with
  | false => rfl
  | true => simp [Option.filter, alive] at missing

theorem does_advance (cfg : Config) (state : State π) {idx : Nat} {task : Task π}
    (present : state.tasks[idx]? = some task) (answer : Answer) :
    Does cfg state (.advance idx answer) (advance cfg state idx task answer) := by
  obtain ⟨inside, rfl⟩ := List.getElem?_eq_some_iff.mp present
  have turn : Turn state state.tasks[idx] (state.tasks.take idx) (state.tasks.drop (idx + 1)) :=
    (List.take_append_drop idx state.tasks).symm.trans (by rw [List.getElem_cons_drop])
  have placed : ∀ next, state.tasks.set idx next =
      state.tasks.take idx ++ next :: state.tasks.drop (idx + 1) := fun next =>
    List.set_eq_take_append_cons_drop.trans (if_pos inside)
  unfold advance
  simp only [placed]
  split
  · next stage =>
    split
    · exact .nothing idx answer
    · next free =>
      split
      · next conn found =>
        obtain ⟨inSlot, alive⟩ := reusable_eq_some found
        exact .reuse idx answer _ _ _ conn turn stage inSlot alive
      · next missing =>
        exact .dial idx answer _ _ _ turn stage (by simpa using free) (reusable_eq_none missing)
  · next stage =>
    split
    · exact .giveUp idx answer _ _ _ turn (by rw [stage]; rfl)
    · split
      · next asks => exact .greet idx answer _ _ _ turn stage asks
      · next asksNot => exact .connect idx answer _ _ _ turn stage (by simpa using asksNot)
  · next conn stage =>
    split
    · next ok =>
      subst ok
      exact .accepted idx _ _ _ conn turn stage
    · exact .giveUp idx answer _ _ _ turn (by rw [stage]; rfl)
  · next conn stage =>
    split
    · next fine =>
      exact .wrote idx answer _ _ _ conn turn stage (Bool.and_eq_true_iff.mp fine).1
    · exact .lose idx answer _ _ _ false turn ⟨conn, stage⟩
  · next stage =>
    split
    · exact .lose idx answer _ _ _ true turn (.inl stage)
    · exact .finish idx answer _ _ _ turn stage
  · next stage =>
    cases answer with
    | reply accepted => exact .reply idx accepted _ _ _ turn stage
    | failed => exact .lose idx _ _ _ _ true turn (.inr stage)
    | ok => exact .lose idx _ _ _ _ true turn (.inr stage)
    | byte value => exact .lose idx _ _ _ _ true turn (.inr stage)
  · next written stage =>
    split
    · exact .nothing idx answer
    · next free => exact .clear idx answer _ _ _ written turn stage (by simpa using free)
  · exact .nothing idx answer

theorem does_step (cfg : Config) (state : State π) (input : Input π) :
    Does cfg state input (step cfg state input) := by
  cases input with
  | start payload => exact .start payload
  | close conn => exact .close conn
  | advance idx answer =>
    unfold step
    dsimp only
    split
    · next task present => exact does_advance cfg state present answer
    · exact .nothing idx answer

theorem run_concat (cfg : Config) (past : List (Input π)) (input : Input π) :
    run cfg (past ++ [input]) = step cfg (run cfg past) input := by
  simp [run]

/-! ## Only authenticated connections carry payloads -/

/-- A payload may be written on the connection. -/
def Ready (cfg : Config) (state : State π) (conn : Nat) : Prop :=
  ∃ connection, state.connections[conn]? = some connection ∧
    (cfg.authenticates = true → connection.authenticated = true)

structure Safe (cfg : Config) (state : State π) : Prop where
  slot : ∀ conn, state.slot = some conn → Ready cfg state conn
  writing : ∀ task ∈ state.tasks, ∀ conn, task.stage = .writing conn → Ready cfg state conn
  greeted : ∀ task ∈ state.tasks, ∀ conn, task.stage = .authenticating conn →
    conn < state.connections.length
  sends : ∀ task ∈ state.tasks, task.stage.ofSend = true → task.payload.isSome = true
  exclusive : state.tasks.countP (fun task => task.stage.holdsLock) ≤ 1
  carried : ∀ connection ∈ state.connections, connection.carried ≠ [] →
    cfg.authenticates = true → connection.authenticated = true
  handshakes : ∀ connection ∈ state.connections,
    connection.handshakes = if cfg.authenticates then 1 else 0

/-- No connection goes away, and none loses its authentication. -/
def Grows (state next : State π) : Prop :=
  ∀ (conn : Nat) connection, state.connections[conn]? = some connection →
    ∃ later, next.connections[conn]? = some later ∧
      (connection.authenticated = true → later.authenticated = true)

theorem Ready.grow {cfg : Config} {state next : State π} {conn : Nat}
    (ready : Ready cfg state conn) (grows : Grows state next) : Ready cfg next conn := by
  obtain ⟨connection, present, authenticated⟩ := ready
  obtain ⟨later, there, kept⟩ := grows conn connection present
  exact ⟨later, there, fun asks => kept (authenticated asks)⟩

theorem grows_append {state next : State π} {more : List (Connection π)}
    (connections : next.connections = state.connections ++ more) : Grows state next := by
  intro conn connection present
  refine ⟨connection, ?_, id⟩
  rw [connections, List.getElem?_append_left (List.getElem?_eq_some_iff.mp present).1, present]

theorem grows_modify {state next : State π} {conn : Nat} {change : Connection π → Connection π}
    (connections : next.connections = state.connections.modify conn change)
    (kept : ∀ connection, connection.authenticated = true →
      (change connection).authenticated = true) : Grows state next := by
  intro other connection present
  rw [connections, List.getElem?_modify, present]
  by_cases here : conn = other
  · exact ⟨change connection, by simp [here], kept connection⟩
  · exact ⟨connection, by simp [here], id⟩

theorem grows_refl {state next : State π} (same : next.connections = state.connections) :
    Grows state next :=
  @grows_append _ state next [] (same.trans (List.append_nil _).symm)

theorem mem_modify {α : Type*} {list : List α} {place : Nat} {change : α → α} {item : α}
    (member : item ∈ list.modify place change) :
    item ∈ list ∨ ∃ old, list[place]? = some old ∧ item = change old := by
  obtain ⟨idx, found⟩ := List.mem_iff_getElem?.mp member
  rw [List.getElem?_modify] at found
  obtain ⟨old, present, rfl⟩ := Option.map_eq_some_iff.mp found
  by_cases here : place = idx
  · exact .inr ⟨old, here ▸ present, by simp [here]⟩
  · exact .inl (by simpa [here] using List.mem_of_getElem? present)

/-- The task whose turn it is moves to another stage. -/
theorem Safe.move {cfg : Config} {state next : State π} (safe : Safe cfg state)
    {task task' : Task π} {before after : List (Task π)} (turn : Turn state task before after)
    (tasks : next.tasks = before ++ task' :: after) (grows : Grows state next)
    (slot : ∀ conn, next.slot = some conn → Ready cfg next conn)
    (writing : ∀ conn, task'.stage = .writing conn → Ready cfg next conn)
    (greeted : ∀ conn, task'.stage = .authenticating conn → conn < next.connections.length)
    (sends : task'.stage.ofSend = true → task'.payload.isSome = true)
    (lock : task'.stage.holdsLock = true →
      task.stage.holdsLock = true ∨ state.locked = false)
    (carried : ∀ connection ∈ next.connections, connection.carried ≠ [] →
      cfg.authenticates = true → connection.authenticated = true)
    (handshakes : ∀ connection ∈ next.connections,
      connection.handshakes = if cfg.authenticates then 1 else 0) : Safe cfg next where
  slot := slot
  writing := by
    intro other member conn stage
    rw [tasks] at member
    rcases List.mem_append.mp member with earlier | later
    · exact (safe.writing other (turn ▸ List.mem_append_left _ earlier) conn stage).grow grows
    · rcases List.mem_cons.mp later with rfl | later
      · exact writing conn stage
      · exact (safe.writing other
          (turn ▸ List.mem_append_right _ (List.mem_cons_of_mem _ later)) conn stage).grow grows
  greeted := by
    intro other member conn stage
    have kept : conn < state.connections.length → conn < next.connections.length := fun inside =>
      (List.getElem?_eq_some_iff.mp
        (grows conn _ (List.getElem?_eq_getElem inside)).choose_spec.1).1
    rw [tasks] at member
    rcases List.mem_append.mp member with earlier | later
    · exact kept (safe.greeted other (turn ▸ List.mem_append_left _ earlier) conn stage)
    · rcases List.mem_cons.mp later with rfl | later
      · exact greeted conn stage
      · exact kept (safe.greeted other
          (turn ▸ List.mem_append_right _ (List.mem_cons_of_mem _ later)) conn stage)
  sends := by
    intro other member
    rw [tasks] at member
    rcases List.mem_append.mp member with earlier | later
    · exact safe.sends other (turn ▸ List.mem_append_left _ earlier)
    · rcases List.mem_cons.mp later with rfl | later
      · exact sends
      · exact safe.sends other (turn ▸ List.mem_append_right _ (List.mem_cons_of_mem _ later))
  exclusive := by
    have few := safe.exclusive
    rw [turn, List.countP_append, List.countP_cons] at few
    rw [tasks, List.countP_append, List.countP_cons]
    by_cases holds : task'.stage.holdsLock = true
    · rcases lock holds with held | free
      · rw [if_pos held] at few
        rwa [if_pos holds]
      · have none : ∀ other ∈ state.tasks, other.stage.holdsLock = false := by
          simpa [State.locked] using free
        rw [turn] at none
        have others : (before ++ after).countP (fun task => task.stage.holdsLock) = 0 := by
          apply List.countP_eq_zero.mpr
          intro other member
          have there : other ∈ before ++ task :: after :=
            ((List.sublist_cons_self task after).append_left before).subset member
          simp [none other there]
        rw [List.countP_append] at others
        rw [if_pos holds]
        omega
    · rw [if_neg holds]
      omega
  carried := carried
  handshakes := handshakes

theorem reach_writing {task : Task π} {conn other : Nat}
    (stage : (task.reach conn).stage = .writing other) : other = conn := by
  unfold Task.reach at stage
  split at stage
  · exact (Stage.writing.inj stage).symm
  · cases stage

theorem reach_unlocked (task : Task π) (conn : Nat) :
    (task.reach conn).stage.holdsLock = false ∧
      ∀ other, (task.reach conn).stage ≠ .authenticating other := by
  unfold Task.reach
  split <;> simp [Stage.holdsLock]

theorem reach_sends (task : Task π) (conn : Nat)
    (ofSend : (task.reach conn).stage.ofSend = true) : (task.reach conn).payload.isSome = true := by
  unfold Task.reach at *
  by_cases sends : task.payload.isSome = true
  · exact sends
  · simp [sends, Stage.ofSend] at ofSend

theorem giveUp_unlocked (task : Task π) :
    task.giveUp.stage.holdsLock = false ∧ (∀ conn, task.giveUp.stage ≠ .writing conn) ∧
      ∀ conn, task.giveUp.stage ≠ .authenticating conn := by
  unfold Task.giveUp
  split <;> simp [Stage.holdsLock]

theorem giveUp_sends (task : Task π) (ofSend : task.giveUp.stage.ofSend = true) :
    task.giveUp.payload.isSome = true := by
  unfold Task.giveUp at *
  by_cases sends : task.payload.isSome = true
  · exact sends
  · simp [sends, Stage.ofSend] at ofSend

/-- The task whose turn it is lets go of the lock, if it holds it, and does not write next;
the slot is kept or cleared. -/
theorem Safe.settle {cfg : Config} {state : State π} (safe : Safe cfg state)
    {task task' : Task π} {before after : List (Task π)} (turn : Turn state task before after)
    {slot : Option Nat} (kept : slot = state.slot ∨ slot = none)
    (unlocked : task'.stage.holdsLock = false) (neverWrites : ∀ conn, task'.stage ≠ .writing conn)
    (neverGreets : ∀ conn, task'.stage ≠ .authenticating conn)
    (sends : task'.stage.ofSend = true → task'.payload.isSome = true) :
    Safe cfg { state with slot := slot, tasks := before ++ task' :: after } := by
  refine safe.move turn rfl (grows_refl rfl) (fun conn inSlot => ?_)
    (fun conn writing => (neverWrites conn writing).elim)
    (fun conn greeting => (neverGreets conn greeting).elim) sends (fun holds => ?_) safe.carried
    safe.handshakes
  · rcases kept with same | cleared
    · exact safe.slot conn (same.symm.trans inSlot)
    · cases cleared.symm.trans inSlot
  · rw [unlocked] at holds
    cases holds

theorem safe_step (cfg : Config) {state : State π} (safe : Safe cfg state) (input : Input π) :
    Safe cfg (step cfg state input) := by
  have does := does_step cfg state input
  generalize step cfg state input = next at does
  cases does with
  | nothing _ _ => exact safe
  | start payload =>
    refine ⟨safe.slot, fun other member => ?_, fun other member => ?_, fun other member => ?_,
      ?_, safe.carried, safe.handshakes⟩
    · rcases List.mem_append.mp member with old | new
      · exact safe.writing other old
      · rw [List.mem_singleton.mp new]
        intro conn stage
        cases stage
    · rcases List.mem_append.mp member with old | new
      · exact safe.greeted other old
      · rw [List.mem_singleton.mp new]
        intro conn stage
        cases stage
    · rcases List.mem_append.mp member with old | new
      · exact safe.sends other old
      · rw [List.mem_singleton.mp new]
        intro ofSend
        cases ofSend
    · rw [List.countP_append]
      exact safe.exclusive
  | close conn =>
    have grows : Grows state { state with
        connections := state.connections.modify conn fun connection =>
          { connection with closed := true } } := grows_modify rfl fun _ kept => kept
    refine ⟨fun other inSlot => (safe.slot other inSlot).grow grows,
      fun task member other stage => (safe.writing task member other stage).grow grows,
      fun task member other stage => ?_, safe.sends, safe.exclusive, fun connection member => ?_,
      fun connection member => ?_⟩
    · rw [List.length_modify]
      exact safe.greeted task member other stage
    · rcases mem_modify member with old | ⟨old, present, rfl⟩
      · exact safe.carried connection old
      · exact safe.carried old (List.mem_of_getElem? present)
    · rcases mem_modify member with old | ⟨old, present, rfl⟩
      · exact safe.handshakes connection old
      · exact safe.handshakes old (List.mem_of_getElem? present)
  | reuse idx answer task before after conn turn stage inSlot alive =>
    obtain ⟨unlocked, never⟩ := reach_unlocked task conn
    refine safe.move turn rfl (grows_refl rfl) safe.slot (fun other writing => ?_)
      (fun other greeting => (never other greeting).elim) (reach_sends task conn)
      (fun holds => ?_) safe.carried safe.handshakes
    · rw [reach_writing writing]
      exact safe.slot conn inSlot
    · rw [unlocked] at holds
      cases holds
  | dial idx answer task before after turn stage free lost =>
    exact safe.move turn rfl (grows_refl rfl) safe.slot (fun _ writing => by cases writing)
      (fun _ greeting => by cases greeting) (fun ofSend => by cases ofSend) (fun _ => .inr free)
      safe.carried safe.handshakes
  | giveUp idx answer task before after turn holds =>
    obtain ⟨unlocked, neverWrites, neverGreets⟩ := giveUp_unlocked task
    exact safe.settle turn (.inl rfl) unlocked neverWrites neverGreets (giveUp_sends task)
  | greet idx answer task before after turn stage asks =>
    have grows : Grows state { state with
      connections := state.connections ++ [{ handshakes := 1 }]
      tasks := before ++
        { task with stage := .authenticating state.connections.length } :: after } :=
      grows_append rfl
    refine safe.move turn rfl grows (fun conn inSlot => (safe.slot conn inSlot).grow grows)
      (fun _ writing => by cases writing) (fun conn greeting => ?_)
      (fun ofSend => by cases ofSend) (fun _ => .inl (by rw [stage]; rfl))
      (fun connection member => ?_)
      (fun connection member => ?_)
    · rw [← Stage.authenticating.inj greeting]
      simp
    · rcases List.mem_append.mp member with old | new
      · exact safe.carried connection old
      · rw [List.mem_singleton.mp new]
        exact fun carries => (carries rfl).elim
    · rcases List.mem_append.mp member with old | new
      · exact safe.handshakes connection old
      · rw [List.mem_singleton.mp new, if_pos asks]
  | connect idx answer task before after turn stage asksNot =>
    obtain ⟨unlocked, never⟩ := reach_unlocked task state.connections.length
    have own : Ready cfg
        { connections := state.connections ++ [{}], slot := some state.connections.length,
          tasks := before ++ task.reach state.connections.length :: after }
        state.connections.length :=
      ⟨{}, by simp, fun asks => by rw [asksNot] at asks; cases asks⟩
    refine safe.move turn rfl (grows_append rfl) (fun conn inSlot => ?_)
      (fun other writing => ?_) (fun other greeting => (never other greeting).elim)
      (reach_sends task _) (fun holds => ?_) (fun connection member => ?_)
      (fun connection member => ?_)
    · rw [← Option.some.inj inSlot]
      exact own
    · rw [reach_writing writing]
      exact own
    · rw [unlocked] at holds
      cases holds
    · rcases List.mem_append.mp member with old | new
      · exact safe.carried connection old
      · rw [List.mem_singleton.mp new]
        exact fun carries => (carries rfl).elim
    · rcases List.mem_append.mp member with old | new
      · exact safe.handshakes connection old
      · rw [List.mem_singleton.mp new, asksNot]
        rfl
  | accepted idx task before after conn turn stage =>
    obtain ⟨unlocked, never⟩ := reach_unlocked task conn
    have inside := safe.greeted task (turn ▸ List.mem_append_right _ (List.mem_cons_self ..)) conn
      stage
    have own : Ready cfg
        { connections := state.connections.modify conn fun connection =>
            { connection with authenticated := true },
          slot := some conn, tasks := before ++ task.reach conn :: after } conn :=
      ⟨_, by rw [List.getElem?_modify_eq, List.getElem?_eq_getElem inside]; rfl, fun _ => rfl⟩
    refine safe.move turn rfl (grows_modify rfl fun _ _ => rfl) (fun other inSlot => ?_)
      (fun other writing => ?_) (fun other greeting => (never other greeting).elim)
      (reach_sends task _) (fun holds => ?_) (fun connection member => ?_)
      (fun connection member => ?_)
    · rw [← Option.some.inj inSlot]
      exact own
    · rw [reach_writing writing]
      exact own
    · rw [unlocked] at holds
      cases holds
    · rcases mem_modify member with old | ⟨old, present, rfl⟩
      · exact safe.carried connection old
      · exact fun _ _ => rfl
    · rcases mem_modify member with old | ⟨old, present, rfl⟩
      · exact safe.handshakes connection old
      · exact safe.handshakes old (List.mem_of_getElem? present)
  | wrote idx answer task before after conn turn stage alive =>
    have ready := safe.writing task (turn ▸ List.mem_append_right _ (List.mem_cons_self ..)) conn
      stage
    have grows : Grows state { state with
        connections := state.connections.modify conn fun connection =>
          { connection with carried := connection.carried ++ task.payload.toList },
        tasks := before ++ { task with stage := .finishing } :: after } :=
      grows_modify rfl fun _ kept => kept
    have sends := safe.sends task (turn ▸ List.mem_append_right _ (List.mem_cons_self ..))
      (by rw [stage]; rfl)
    refine safe.move turn rfl grows (fun other inSlot => (safe.slot other inSlot).grow grows)
      (fun _ writing => by cases writing) (fun _ greeting => by cases greeting)
      (fun _ => sends) (fun holds => by cases holds) (fun connection member => ?_)
      (fun connection member => ?_)
    · rcases mem_modify member with old | ⟨old, present, rfl⟩
      · exact safe.carried connection old
      · obtain ⟨found, there, authenticated⟩ := ready
        rw [Option.some.inj (present.symm.trans there)]
        exact fun _ asks => authenticated asks
    · rcases mem_modify member with old | ⟨old, present, rfl⟩
      · exact safe.handshakes connection old
      · exact safe.handshakes old (List.mem_of_getElem? present)
  | finish idx answer task before after turn stage =>
    have sends := safe.sends task (turn ▸ List.mem_append_right _ (List.mem_cons_self ..))
      (by rw [stage]; rfl)
    refine safe.settle turn (.inl rfl) ?_ ?_ ?_ fun _ => sends
    all_goals cases cfg.replies <;> simp [Stage.holdsLock]
  | reply idx accepted task before after turn stage =>
    exact safe.settle turn (.inl rfl) rfl (by simp) (by simp) (fun ofSend => by cases ofSend)
  | lose idx answer task before after written turn stage =>
    have ofSend : task.stage.ofSend = true := by
      cases written with
      | true => rcases stage with finishing | reading <;> simp [*, Stage.ofSend]
      | false =>
        obtain ⟨conn, writing⟩ := stage
        simp [writing, Stage.ofSend]
    have sends := safe.sends task (turn ▸ List.mem_append_right _ (List.mem_cons_self ..)) ofSend
    exact safe.settle turn (.inl rfl) rfl (by simp) (by simp) fun _ => sends
  | clear idx answer task before after written turn stage free =>
    exact safe.settle turn (.inr rfl) rfl (by simp) (by simp) (fun ofSend => by cases ofSend)

theorem safe_run (cfg : Config) (inputs : List (Input π)) : Safe cfg (run cfg inputs) := by
  induction inputs using List.reverseRecOn with
  | nil =>
    exact ⟨fun _ inSlot => (by cases inSlot), fun _ member => (by cases member),
      fun _ member => (by cases member), fun _ member => (by cases member), Nat.zero_le _,
      fun _ member => (by cases member), fun _ member => (by cases member)⟩
  | append_singleton past input ih =>
    rw [run_concat]
    exact safe_step cfg ih input

/-! ## What is written is accounted for -/

namespace Stage

/-- The payload was written. -/
def written : Stage → Bool
  | finishing | reading | done .success | done .refused => true
  | clearing written | done (.failed written) => written
  | waiting | connecting | authenticating _ | writing _ => false

/-- The send reported success. -/
def reported : Stage → Bool
  | done .success => true
  | done .refused | done (.failed _) | waiting | connecting | authenticating _ | writing _
  | finishing | reading | clearing _ => false

/-- The payload was written, and its send has not reported success: its stream is not
finished, its reply is not read, the reply refused it, or one of these failed. -/
def unconfirmed (stage : Stage) : Bool := stage.written && !stage.reported

end Stage

/-- The payload of a task, if its stage is such. -/
def Task.payloadIf (p : Stage → Bool) (task : Task π) : Option π :=
  if p task.stage then task.payload else none

/-- The payloads of the tasks whose stage is such. -/
def State.payloadsWhere (p : Stage → Bool) (state : State π) : List π :=
  state.tasks.filterMap (Task.payloadIf p)

/-- The payloads that were written, connection by connection. -/
def State.carried (state : State π) : List π := state.connections.flatMap Connection.carried

theorem payloadIf_reach (task : Task π) (conn : Nat) :
    (task.reach conn).payloadIf Stage.written = none := by
  unfold Task.reach Task.payloadIf
  cases task.payload <;> rfl

theorem payloadIf_giveUp (task : Task π) : task.giveUp.payloadIf Stage.written = none := by
  unfold Task.giveUp Task.payloadIf
  cases task.payload <;> rfl

theorem flatMap_modify_perm {connections : List (Connection π)} {conn : Nat}
    {connection : Connection π} (present : connections[conn]? = some connection)
    (more : List π) :
    ((connections.modify conn fun old => { old with carried := old.carried ++ more }).flatMap
      Connection.carried).Perm (connections.flatMap Connection.carried ++ more) := by
  induction connections generalizing conn with
  | nil => cases present
  | cons first rest ih =>
    cases conn with
    | zero =>
      rw [List.modify_zero_cons, List.flatMap_cons, List.flatMap_cons, List.append_assoc,
        List.append_assoc]
      exact List.perm_append_comm.append_left _
    | succ conn =>
      rw [List.modify_succ_cons, List.flatMap_cons, List.flatMap_cons, List.append_assoc]
      exact (ih present).append_left _

theorem flatMap_modify_same {connections : List (Connection π)} {conn : Nat}
    {change : Connection π → Connection π}
    (same : ∀ connection, (change connection).carried = connection.carried) :
    (connections.modify conn change).flatMap Connection.carried =
      connections.flatMap Connection.carried := by
  induction connections generalizing conn with
  | nil => simp
  | cons first rest ih => cases conn <;> simp [ih, same]

theorem payloadsWhere_turn {state next : State π} {task task' : Task π}
    {before after : List (Task π)} (turn : Turn state task before after)
    (tasks : next.tasks = before ++ task' :: after) {p : Stage → Bool}
    (unmet : task.payloadIf p = none) :
    (next.payloadsWhere p).Perm (state.payloadsWhere p ++ (task'.payloadIf p).toList) := by
  rw [State.payloadsWhere, State.payloadsWhere, tasks, turn, List.filterMap_append,
    List.filterMap_append, List.filterMap_cons_none unmet, List.append_assoc]
  refine List.Perm.append_left _ ?_
  cases own : task'.payloadIf p with
  | none => rw [List.filterMap_cons_none own, Option.toList_none, List.append_nil]
  | some payload =>
    rw [List.filterMap_cons_some own, Option.toList_some]
    exact (List.perm_append_singleton payload _).symm

/-- A task that moves without writing leaves the payloads written as they were. -/
theorem payloadsWhere_same {state next : State π} {task task' : Task π}
    {before after : List (Task π)} (turn : Turn state task before after)
    (tasks : next.tasks = before ++ task' :: after) {p : Stage → Bool}
    (same : task'.payloadIf p = task.payloadIf p) :
    next.payloadsWhere p = state.payloadsWhere p := by
  simp only [State.payloadsWhere, tasks, turn, List.filterMap_append, List.filterMap_cons, same]

/-- What is written is confirmed or not. -/
theorem written_perm (tasks : List (Task π)) :
    (tasks.filterMap (Task.payloadIf Stage.written)).Perm
      (tasks.filterMap (Task.payloadIf Stage.reported) ++
        tasks.filterMap (Task.payloadIf Stage.unconfirmed)) := by
  induction tasks with
  | nil => exact .nil
  | cons task rest ih =>
    cases reported : task.stage.reported with
    | true =>
      have written : task.stage.written = true := by
        unfold Stage.reported at reported
        split at reported
        · next stage => rw [stage]; rfl
        all_goals cases reported
      cases own : task.payload with
      | none => simpa [Task.payloadIf, own] using ih
      | some payload =>
        simpa [Task.payloadIf, own, reported, written, Stage.unconfirmed] using ih
    | false =>
      cases written : task.stage.written with
      | false => simpa [Task.payloadIf, reported, written, Stage.unconfirmed] using ih
      | true =>
        cases own : task.payload with
        | none => simpa [Task.payloadIf, own] using ih
        | some payload =>
          have first : task.payloadIf Stage.unconfirmed = some payload := by
            simp [Task.payloadIf, own, reported, written, Stage.unconfirmed]
          rw [List.filterMap_cons_some (b := payload) (by simp [Task.payloadIf, own, written]),
            List.filterMap_cons_none (by simp [Task.payloadIf, reported]),
            List.filterMap_cons_some first]
          exact (ih.cons payload).trans List.perm_middle.symm

/-- **A step writes a payload on a connection exactly when its task goes on to a stage at
which it is written.** -/
theorem carried_step (cfg : Config) {state : State π} (safe : Safe cfg state)
    (accounted : state.carried.Perm (state.payloadsWhere Stage.written)) (input : Input π) :
    (step cfg state input).carried.Perm
      ((step cfg state input).payloadsWhere Stage.written) := by
  have does := does_step cfg state input
  generalize step cfg state input = next at does
  -- a move that writes nothing
  have quiet : ∀ {task task' : Task π} {before after : List (Task π)} {next : State π},
      Turn state task before after → next.tasks = before ++ task' :: after →
      task'.payloadIf Stage.written = task.payloadIf Stage.written →
      next.carried = state.carried →
        next.carried.Perm (next.payloadsWhere Stage.written) := by
    intro task task' before after next turn tasks same carried
    rw [carried, payloadsWhere_same turn tasks same]
    exact accounted
  cases does with
  | nothing _ _ => exact accounted
  | start payload =>
    have same : ({ state with tasks := state.tasks ++ [{ payload }] } : State π).payloadsWhere
        Stage.written = state.payloadsWhere Stage.written := by
      simp [State.payloadsWhere, Task.payloadIf, Stage.written]
    exact same ▸ accounted
  | close conn =>
    have same : ({ state with
        connections := state.connections.modify conn fun connection =>
          { connection with closed := true } } : State π).carried = state.carried :=
      flatMap_modify_same fun _ => rfl
    rw [same]
    exact accounted
  | reuse idx answer task before after conn turn stage inSlot alive =>
    refine quiet turn rfl ?_ rfl
    rw [payloadIf_reach, Task.payloadIf, stage]
    rfl
  | dial idx answer task before after turn stage free lost =>
    refine quiet turn rfl ?_ rfl
    rw [Task.payloadIf, Task.payloadIf, stage]
    rfl
  | giveUp idx answer task before after turn holds =>
    refine quiet turn rfl ?_ rfl
    rw [payloadIf_giveUp, Task.payloadIf]
    cases stage : task.stage <;> simp [stage, Stage.holdsLock] at holds <;> rfl
  | greet idx answer task before after turn stage asks =>
    refine quiet turn rfl ?_ ?_
    · rw [Task.payloadIf, Task.payloadIf, stage]
      rfl
    · simp [State.carried]
  | connect idx answer task before after turn stage asksNot =>
    refine quiet turn rfl ?_ ?_
    · rw [payloadIf_reach, Task.payloadIf, stage]
      rfl
    · simp [State.carried]
  | accepted idx task before after conn turn stage =>
    refine quiet turn rfl ?_ (flatMap_modify_same fun _ => rfl)
    rw [payloadIf_reach, Task.payloadIf, stage]
    rfl
  | wrote idx answer task before after conn turn stage alive =>
    obtain ⟨connection, present, _⟩ := safe.writing task
      (turn ▸ List.mem_append_right _ (List.mem_cons_self ..)) conn stage
    have unmet : task.payloadIf Stage.written = none := by
      rw [Task.payloadIf, stage]
      rfl
    have more := @payloadsWhere_turn _ state { state with
      connections := state.connections.modify conn fun connection =>
        { connection with carried := connection.carried ++ task.payload.toList }
      tasks := before ++ { task with stage := .finishing } :: after } _ _ _ _ turn rfl
      Stage.written unmet
    exact (flatMap_modify_perm present _).trans ((accounted.append_right _).trans more.symm)
  | finish idx answer task before after turn stage =>
    refine quiet turn rfl ?_ rfl
    rw [Task.payloadIf, Task.payloadIf, stage]
    cases cfg.replies <;> rfl
  | reply idx accepted task before after turn stage =>
    refine quiet turn rfl ?_ rfl
    rw [Task.payloadIf, Task.payloadIf, stage]
    cases accepted <;> rfl
  | lose idx answer task before after written turn stage =>
    refine quiet turn rfl ?_ rfl
    rw [Task.payloadIf, Task.payloadIf]
    cases written with
    | true => rcases stage with stage | stage <;> rw [stage] <;> rfl
    | false =>
      obtain ⟨conn, stage⟩ := stage
      rw [stage]
      rfl
  | clear idx answer task before after written turn stage free =>
    refine quiet turn rfl ?_ rfl
    rw [Task.payloadIf, Task.payloadIf, stage]
    rfl

/-- **In every interleaving, the payloads written are those of the sends that reported
success and of the sends that have not been confirmed**; where the provider authenticates,
they were written on a connection with one handshake, which was accepted; and at most one
task holds the lock. -/
theorem payloads_accounted (cfg : Config) (inputs : List (Input π)) :
    (run cfg inputs).carried.Perm
        ((run cfg inputs).payloadsWhere Stage.reported ++
          (run cfg inputs).payloadsWhere Stage.unconfirmed) ∧
      (cfg.authenticates = true → ∀ connection ∈ (run cfg inputs).connections,
        connection.carried ≠ [] →
          connection.authenticated = true ∧ connection.handshakes = 1) ∧
      (run cfg inputs).tasks.countP (fun task => task.stage.holdsLock) ≤ 1 := by
  have safe := safe_run cfg inputs
  refine ⟨?_, fun asks connection member carries =>
    ⟨safe.carried connection member carries asks, ?_⟩, safe.exclusive⟩
  · have accounted : (run cfg inputs).carried.Perm
        ((run cfg inputs).payloadsWhere Stage.written) := by
      clear safe
      induction inputs using List.reverseRecOn with
      | nil => exact List.Perm.refl _
      | append_singleton past input ih =>
        rw [run_concat]
        exact carried_step cfg (safe_run cfg past) ih input
    exact accounted.trans (written_perm _)
  · rw [safe.handshakes connection member, if_pos asks]

end Steps

/-- A payload is written, and the relay replies with an error: the send failed and the slot
is kept. -/
example :
    (run ⟨false, true⟩ ([.start (some 1), .advance 0 .ok, .advance 0 .ok, .advance 0 .ok,
      .advance 0 .ok, .advance 0 (.reply false)] : List (Input Nat))).slot = some 0 ∧
    (run ⟨false, true⟩ ([.start (some 1), .advance 0 .ok, .advance 0 .ok, .advance 0 .ok,
      .advance 0 .ok, .advance 0 (.reply false)] : List (Input Nat))).payloadsWhere
        Stage.unconfirmed = [1] := by
  decide

end SenderAnalysis.QuicConnections

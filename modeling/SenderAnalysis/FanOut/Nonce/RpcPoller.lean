import SenderAnalysis.FanOut.Nonce.Bootstrap

/-!
# The poller of stale nonces

A thread wakes up from time to time, moves the nonces past their deadline to the stale
state, lists the keys of the stale ones, asks the RPC node for their accounts in chunks of a
hundred, and refreshes each nonce whose account can be read. The locks of the entries are
taken one at a time, so between any two of these steps the other threads go on: they hand
out nonces and report landings, and the accounts change on chain.

The state holds the manager, the accounts on chain, and how far the poller is in its round.
An input is a step of the poller, with the answer of the RPC node if the step is a call, an
operation of another thread, or a change on chain; only the poller moves nonces to the stale
state and refreshes them. Each of its steps touches one entry. What the node answers need not
be what is on chain; a run in which it is says so (`AnswersCurrent`). A sweep that nothing
interrupts is the `tickTimeouts` of the manager (`sweep_alone`).
-/

set_option autoImplicit false

namespace SenderAnalysis.RpcPoller

open NonceManager (Operation)

/-- What the RPC node answers to a call: an account, if there is one, for each key. -/
abbrev Accounts := List (Option AccountData)

structure Config where
  inFlightDeadline : Duration
  awaitingUpdateDeadline : Duration

/-- How far the poller is: in the sweep of the deadlines, in the list of the stale keys,
about to ask for the chunks that are left, or in the answer to one chunk. -/
inductive Phase where
  | sleeping
  | sweeping (now : Instant) (position newStale : Nat)
  | listing (position : Nat) (stalePubkeys : List Pubkey)
  | asking (left : List (List Pubkey)) (refreshed : Nat)
  | refreshing (answers : List (Pubkey × Option AccountData)) (left : List (List Pubkey))
      (refreshed : Nat)

namespace Phase

def isSleeping : Phase → Bool
  | sleeping => true
  | sweeping _ _ _ | listing _ _ | asking _ _ | refreshing _ _ _ => false

def isSweeping : Phase → Bool
  | sweeping _ _ _ => true
  | sleeping | listing _ _ | asking _ _ | refreshing _ _ _ => false

/-- The poller asks for accounts or reads the answers. -/
def inBatch : Phase → Bool
  | asking _ _ | refreshing _ _ _ => true
  | sleeping | sweeping _ _ _ | listing _ _ => false

/-- The keys of the call that is next. -/
def called : Phase → Option (List Pubkey)
  | asking (chunk :: _) _ => some chunk
  | asking [] _ | sleeping | sweeping _ _ _ | listing _ _ | refreshing _ _ _ => none

end Phase

structure State where
  manager : NonceManager
  chain : Chain
  phase : Phase := .sleeping

/-- What the poller logs, and what another thread is handed out. -/
inductive Event where
  | becameStale (count : Nat)
  | refreshedStale (count : Nat)
  | batchFailed
  | handedOut (nonce : NonceId × Pubkey × Hash)
deriving DecidableEq, Repr

/-- Other threads do not sweep the deadlines and do not refresh. -/
def IsForeign : Operation → Bool
  | .tickTimeouts _ _ _ | .onFallbackRefresh _ _ => false
  | .takeReady _ | .onAccountUpdate _ _ | .onObservedLanding _ _ | .onLandingWithBlockhash _ _
  | .restoreUnchanged _ => true

/-- An operation of another thread. -/
abbrev Foreign := { operation : Operation // IsForeign operation = true }

/-- A step of the poller, an operation of another thread, or a change of an account on
chain. A step that calls the RPC node gets its answer, or fails; the other steps get an
answer that they do not read. -/
inductive Input where
  | wake (now : Instant)
  | proceed (answer : Accounts)
  | fail
  | elsewhere (operation : Foreign)
  | onChain (pubkey : Pubkey) (account : Option AccountData)

def Input.isProceed : Input → Bool
  | .proceed _ => true
  | .wake _ | .fail | .elsewhere _ | .onChain _ _ => false

/-- The value of an account that can be read. -/
def readable (account : Option AccountData) : Option Hash :=
  account.bind fun data => (parseNonceAccountData data).toOption.map NonceAccountState.blockhash

/-- The value that an answer gives at a place. -/
def valueAt (answer : Accounts) (place : Nat) : Option Hash := answer[place]?.bind readable

/-- Move the entry at a position to the stale state, if its deadline passed. -/
def sweepEntry (cfg : Config) (now : Instant) (manager : NonceManager) (position : Nat) :
    NonceManager :=
  manager.setState position fun state =>
    (state.timeout now cfg.inFlightDeadline cfg.awaitingUpdateDeadline).1

/-- Did the deadline of an entry pass? -/
def passed (cfg : Config) (now : Instant) (entry : NonceEntry) : Bool :=
  (entry.state.timeout now cfg.inFlightDeadline cfg.awaitingUpdateDeadline).2

/-- The next step of the poller, with the answer of the RPC node if the step is a call. -/
def proceed (cfg : Config) (state : State) (answer : Accounts) :
    State × List Event :=
  match state.phase with
  | .sleeping => (state, [])
  | .sweeping now position newStale =>
      match state.manager.entries[position]? with
      | some entry =>
          ({ state with
              manager := sweepEntry cfg now state.manager position
              phase := .sweeping now (position + 1)
                (if passed cfg now entry then newStale + 1 else newStale) }, [])
      | none =>
          ({ state with phase := .listing 0 [] },
            if newStale = 0 then [] else [.becameStale newStale])
  | .listing position stalePubkeys =>
      match state.manager.entries[position]? with
      | some entry =>
          ({ state with
              phase := .listing (position + 1)
                (if entry.state.isStale then stalePubkeys ++ [entry.pubkey] else stalePubkeys) },
            [])
      | none =>
          ({ state with
              phase := if stalePubkeys.isEmpty then .sleeping
                else .asking (chunks Bootstrap.chunkSize stalePubkeys) 0 }, [])
  | .asking [] refreshed => ({ state with phase := .sleeping }, [.refreshedStale refreshed])
  | .asking (chunk :: left) refreshed =>
      ({ state with phase := .refreshing (chunk.zip answer) left refreshed }, [])
  | .refreshing [] left refreshed => ({ state with phase := .asking left refreshed }, [])
  | .refreshing ((pubkey, account) :: answers) left refreshed =>
      match readable account with
      | some blockhash =>
          ({ state with
              manager := state.manager.onFallbackRefresh pubkey blockhash
              phase := .refreshing answers left (refreshed + 1) }, [])
      | none => ({ state with phase := .refreshing answers left refreshed }, [])

def step (cfg : Config) (state : State) : Input → State × List Event
  | .wake now =>
      (if state.phase.isSleeping then { state with phase := .sweeping now 0 0 } else state, [])
  | .proceed answer => proceed cfg state answer
  | .fail =>
      match state.phase with
      | .asking (_ :: _) _ => ({ state with phase := .sleeping }, [.batchFailed])
      | .asking [] _ | .sleeping | .sweeping _ _ _ | .listing _ _ | .refreshing _ _ _ =>
          (state, [])
  | .elsewhere operation =>
      ({ state with manager := (state.manager.apply operation.1).1 },
        (state.manager.apply operation.1).2.map .handedOut)
  | .onChain pubkey account =>
      ({ state with chain := Function.update state.chain pubkey account }, [])

def run (cfg : Config) (state : State) (inputs : List Input) : State × List Event :=
  runAll (step cfg) state inputs

/-! ## What a step can do -/

/-- What one step does. -/
inductive Does (cfg : Config) (state : State) : Input → State × List Event → Prop where
  | nothing (input : Input) (idle : state.phase = .sleeping ∨ input.isProceed = false) :
      Does cfg state input (state, [])
  | wake (now : Instant) (asleep : state.phase = .sleeping) :
      Does cfg state (.wake now) ({ state with phase := .sweeping now 0 0 }, [])
  | sweep (answer : Accounts) (now : Instant) (position newStale newStale' : Nat)
      (entry : NonceEntry)
      (phase : state.phase = .sweeping now position newStale)
      (present : state.manager.entries[position]? = some entry) :
      Does cfg state (.proceed answer) ({ state with
        manager := sweepEntry cfg now state.manager position
        phase := .sweeping now (position + 1) newStale' }, [])
  | swept (answer : Accounts) (now : Instant) (position newStale : Nat) (events : List Event)
      (phase : state.phase = .sweeping now position newStale)
      (absent : state.manager.entries[position]? = none)
      (quiet : ∀ nonce, Event.handedOut nonce ∉ events) :
      Does cfg state (.proceed answer) ({ state with phase := .listing 0 [] }, events)
  | look (answer : Accounts) (position : Nat) (stalePubkeys : List Pubkey) (entry : NonceEntry)
      (phase : state.phase = .listing position stalePubkeys)
      (present : state.manager.entries[position]? = some entry) :
      Does cfg state (.proceed answer) ({ state with
        phase := .listing (position + 1)
          (if entry.state.isStale then stalePubkeys ++ [entry.pubkey] else stalePubkeys) }, [])
  | noneStale (answer : Accounts) (position : Nat) (phase : state.phase = .listing position [])
      (absent : state.manager.entries[position]? = none) :
      Does cfg state (.proceed answer) ({ state with phase := .sleeping }, [])
  | listed (answer : Accounts) (position : Nat) (stalePubkeys : List Pubkey)
      (phase : state.phase = .listing position stalePubkeys)
      (absent : state.manager.entries[position]? = none) :
      Does cfg state (.proceed answer) ({ state with
        phase := .asking (chunks Bootstrap.chunkSize stalePubkeys) 0 }, [])
  | ask (answer : Accounts) (chunk : List Pubkey) (left : List (List Pubkey)) (refreshed : Nat)
      (phase : state.phase = .asking (chunk :: left) refreshed) :
      Does cfg state (.proceed answer) ({ state with
        phase := .refreshing (chunk.zip answer) left refreshed }, [])
  | refresh (answer : Accounts) (pubkey : Pubkey) (account : Option AccountData) (blockhash : Hash)
      (answers : List (Pubkey × Option AccountData)) (left : List (List Pubkey))
      (refreshed : Nat)
      (phase : state.phase = .refreshing ((pubkey, account) :: answers) left refreshed)
      (found : readable account = some blockhash) :
      Does cfg state (.proceed answer) ({ state with
        manager := state.manager.onFallbackRefresh pubkey blockhash
        phase := .refreshing answers left (refreshed + 1) }, [])
  | skip (answer : Accounts) (pubkey : Pubkey) (account : Option AccountData)
      (answers : List (Pubkey × Option AccountData)) (left : List (List Pubkey))
      (refreshed : Nat)
      (phase : state.phase = .refreshing ((pubkey, account) :: answers) left refreshed)
      (unreadable : readable account = none) :
      Does cfg state (.proceed answer)
        ({ state with phase := .refreshing answers left refreshed }, [])
  | answered (answer : Accounts) (left : List (List Pubkey)) (refreshed : Nat)
      (phase : state.phase = .refreshing [] left refreshed) :
      Does cfg state (.proceed answer) ({ state with phase := .asking left refreshed }, [])
  | finish (answer : Accounts) (refreshed : Nat) (phase : state.phase = .asking [] refreshed) :
      Does cfg state (.proceed answer)
        ({ state with phase := .sleeping }, [.refreshedStale refreshed])
  | fail (chunk : List Pubkey) (left : List (List Pubkey)) (refreshed : Nat)
      (phase : state.phase = .asking (chunk :: left) refreshed) :
      Does cfg state .fail ({ state with phase := .sleeping }, [.batchFailed])
  | elsewhere (operation : Foreign) :
      Does cfg state (.elsewhere operation) ({ state with
        manager := (state.manager.apply operation.1).1 },
        (state.manager.apply operation.1).2.map .handedOut)
  | onChain (pubkey : Pubkey) (account : Option AccountData) :
      Does cfg state (.onChain pubkey account) ({ state with
        chain := Function.update state.chain pubkey account }, [])

theorem does_proceed (cfg : Config) (state : State) (answer : Accounts) :
    Does cfg state (.proceed answer) (proceed cfg state answer) := by
  unfold proceed
  split
  · next phase => exact .nothing _ (.inl phase)
  · next now position newStale phase =>
    split
    · next entry present => exact .sweep answer now position newStale _ entry phase present
    · next absent =>
      refine .swept answer now position newStale _ phase absent fun nonce => ?_
      split <;> simp
  · next position stalePubkeys phase =>
    split
    · next entry present => exact .look answer position stalePubkeys entry phase present
    · next absent =>
      split
      · next empty =>
        exact .noneStale answer position (List.isEmpty_iff.mp empty ▸ phase) absent
      · exact .listed answer position stalePubkeys phase absent
  · next refreshed phase => exact .finish answer refreshed phase
  · next chunk left refreshed phase => exact .ask answer chunk left refreshed phase
  · next left refreshed phase => exact .answered answer left refreshed phase
  · next pubkey account answers left refreshed phase =>
    split
    · next blockhash found =>
      exact .refresh answer pubkey account blockhash answers left refreshed phase found
    · next unreadable => exact .skip answer pubkey account answers left refreshed phase unreadable

theorem does_step (cfg : Config) (state : State) (input : Input) :
    Does cfg state input (step cfg state input) := by
  cases input with
  | wake now =>
    unfold step
    cases phase : state.phase with
    | sleeping => exact .wake now phase
    | sweeping _ _ _ | listing _ _ | asking _ _ | refreshing _ _ _ =>
      exact .nothing _ (.inr rfl)
  | proceed answer => exact does_proceed cfg state answer
  | fail =>
    unfold step
    cases phase : state.phase with
    | asking left refreshed =>
      cases left with
      | nil => exact .nothing _ (.inr rfl)
      | cons chunk left => exact .fail chunk left refreshed phase
    | sleeping | sweeping _ _ _ | listing _ _ | refreshing _ _ _ =>
      exact .nothing _ (.inr rfl)
  | elsewhere operation => exact .elsewhere operation
  | onChain pubkey account => exact .onChain pubkey account

/-! ## The sweep and the deadlines of the manager -/

/-- The state of an entry after the sweep. -/
def expire (cfg : Config) (now : Instant) (entry : NonceEntry) : NonceEntry :=
  { entry with
    state := (entry.state.timeout now cfg.inFlightDeadline cfg.awaitingUpdateDeadline).1 }

theorem proceed_sweeping {cfg : Config} {state : State} {now : Instant} {position newStale : Nat}
    {entry : NonceEntry} (phase : state.phase = .sweeping now position newStale)
    (present : state.manager.entries[position]? = some entry)
    (answer : Accounts) :
    (proceed cfg state answer).1 = { state with
      manager := sweepEntry cfg now state.manager position
      phase := .sweeping now (position + 1)
        (if passed cfg now entry then newStale + 1 else newStale) } := by
  simp only [proceed, phase, present]

/-- How far a sweep is after some steps that nothing interrupts. -/
theorem sweep_steps (cfg : Config) {now : Instant} {state : State}
    (start : state.phase = .sweeping now 0 0) {steps : Nat}
    (inside : steps ≤ state.manager.entries.length) :
    (∀ idx : Nat, (run cfg state (List.replicate steps (.proceed []))).1.manager.entries[idx]? =
        state.manager.entries[idx]?.map fun entry =>
          if idx < steps then expire cfg now entry else entry) ∧
      (run cfg state (List.replicate steps (.proceed []))).1.phase =
        .sweeping now steps ((state.manager.entries.take steps).countP (passed cfg now)) := by
  induction steps with
  | zero => exact ⟨by simp [run], start⟩
  | succ steps ih =>
    obtain ⟨entries, phase⟩ := ih (by omega)
    have next := List.getElem?_eq_getElem (show steps < state.manager.entries.length by omega)
    have present : (run cfg state (List.replicate steps (.proceed []))).1.manager.entries[steps]? =
        some state.manager.entries[steps] := by
      rw [entries, next]
      simp
    have grown : (run cfg state (List.replicate (steps + 1) (.proceed []))).1 =
        (proceed cfg (run cfg state (List.replicate steps (.proceed []))).1 []).1 := by
      rw [List.replicate_succ', run, runAll_concat]
      rfl
    rw [grown, proceed_sweeping phase present]
    refine ⟨fun idx => ?_, ?_⟩
    · change (sweepEntry cfg now _ steps).entries[idx]? = _
      rw [sweepEntry, NonceManager.setState_getElem?, entries, Option.map_map]
      refine congrArg (fun change => state.manager.entries[idx]?.map change)
        (funext fun entry => ?_)
      simp only [Function.comp_apply]
      by_cases here : steps = idx
      · subst here
        simp [expire]
      · rw [if_neg here]
        exact if_congr (by omega) rfl rfl
    · have taken : state.manager.entries.take (steps + 1) =
          state.manager.entries.take steps ++ [state.manager.entries[steps]] := by
        rw [List.take_add_one, next]
        rfl
      rw [taken, List.countP_append, List.countP_singleton]
      split <;> rfl

/-- **A sweep that nothing interrupts is the manager's own**, and counts what it lists. -/
theorem sweep_alone (cfg : Config) {now : Instant} {state : State}
    (start : state.phase = .sweeping now 0 0) :
    let final := (run cfg state (List.replicate state.manager.entries.length (.proceed []))).1
    let swept := state.manager.tickTimeouts now cfg.inFlightDeadline cfg.awaitingUpdateDeadline
    final.manager.entries = swept.1.entries ∧
      final.phase = .sweeping now state.manager.entries.length swept.2.length := by
  obtain ⟨entries, phase⟩ := sweep_steps cfg start (Nat.le_refl _)
  refine ⟨List.ext_getElem? fun idx => ?_, ?_⟩
  · rw [entries]
    simp only [NonceManager.tickTimeouts, NonceManager.mapStates_getElem?]
    cases present : state.manager.entries[idx]? with
    | none => rfl
    | some entry =>
      obtain ⟨inside, _⟩ := List.getElem?_eq_some_iff.mp present
      rw [Option.map_some, if_pos inside]
      rfl
  · rw [phase, List.take_length, List.countP_eq_length_filter]
    simp only [NonceManager.tickTimeouts, List.length_map]
    rfl

end SenderAnalysis.RpcPoller

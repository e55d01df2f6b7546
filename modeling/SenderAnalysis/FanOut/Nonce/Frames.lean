import SenderAnalysis.FanOut.Nonce.RoundRobin

/-!
# What an operation leaves alone

Each operation but `takeReady` applies one change of states, either to the entry it
names (`setStateAt_pubkey_getElem?`, `setStateAt_id_getElem?`) or, for `tickTimeouts`,
to all entries (`tickTimeouts_getElem?`). So a frame fact about an operation is a fact
about its change of one state: which changes keep the carried value, and when a change
reports that it did something.

The ids of the entries are distinct, and the index leads from the key of an entry
to that entry. `new` establishes this for accounts with distinct ids and keys
(`distinct_new`), and every operation keeps it (`Distinct.apply`).
-/

set_option autoImplicit false

namespace SenderAnalysis

namespace NonceState

variable {state : NonceState}

/-! ## Changes of one state -/

@[simp] theorem carried_observedLanding (now : Instant) :
    (state.observedLanding now).carried = state.carried := by
  cases state <;> rfl

@[simp] theorem carried_restoreUnchanged : state.restoreUnchanged.1.carried = state.carried := by
  cases state <;> rfl

@[simp] theorem carried_timeout (now : Instant) (inFlight awaiting : Duration) :
    (state.timeout now inFlight awaiting).1.carried = state.carried := by
  cases state with
  | ready _ | stale _ _ => rfl
  | inFlight used since | awaitingUpdate used since =>
    simp only [timeout]
    split <;> rfl

theorem accountUpdate_reports (new : Hash) :
    (state.accountUpdate new).2 = true ↔ (state.accountUpdate new).1 ≠ state := by
  unfold accountUpdate
  split
  · next differs =>
    simp only [true_iff]
    rintro rfl
    exact differs rfl
  · simp

theorem landingWithBlockhash_reports (new : Hash) :
    (state.landingWithBlockhash new).2 = true ↔ (state.landingWithBlockhash new).1 ≠ state := by
  cases state with
  | ready blockhash =>
    simp only [landingWithBlockhash]
    split
    · next differs => simpa using Ne.symm differs
    · simp
  | inFlight _ _ | awaitingUpdate _ _ | stale _ _ => simp [landingWithBlockhash]

/-- A timeout reports the states that it makes stale. -/
theorem timeout_reports (now : Instant) (inFlight awaiting : Duration) :
    (state.timeout now inFlight awaiting).2 = true ↔
      state.isStale = false ∧ (state.timeout now inFlight awaiting).1.isStale = true := by
  cases state with
  | ready _ | stale _ _ => simp [timeout, isStale]
  | inFlight used since | awaitingUpdate used since =>
    simp only [timeout]
    split <;> simp [isStale]

theorem fallbackRefresh_eq (observed : Hash) :
    state.fallbackRefresh observed = if state.isStale = true then ready observed else state := by
  cases state with
  | ready _ | inFlight _ _ | awaitingUpdate _ _ => simp [fallbackRefresh, isStale]
  | stale used since =>
    simp only [fallbackRefresh, isStale, if_true]
    split
    · next same => rw [same]
    · rfl

theorem restoreUnchanged_eq : state.restoreUnchanged.1 = ready state.carried := by
  cases state <;> rfl

theorem restoreUnchanged_reports : state.restoreUnchanged.2 = !state.isReady := by
  cases state <;> rfl

end NonceState

namespace NonceManager

variable {manager : NonceManager}

/-! ## Distinct entries -/

/-- The ids are distinct, and the index leads from the key of every entry to that
entry, so the keys are distinct too. -/
structure Distinct (manager : NonceManager) : Prop where
  ids : manager.ids.Nodup
  indexedAll : ∀ idx entry, manager.entries[idx]? = some entry →
    manager.pubkeyIndex.get entry.pubkey = some idx

theorem get_indexAccounts {accounts : List NonceAccount}
    (keys : (accounts.map fun account => account.2.1).Nodup) {idx : Nat} {account : NonceAccount}
    (present : accounts[idx]? = some account) :
    (indexAccounts accounts).get account.2.1 = some idx := by
  unfold indexAccounts
  rw [HashTable.lookup_foldl HashTable.get Prod.fst Prod.snd
    (fun table item key => HashTable.get_insert table item.1 key item.2) HashTable.get_empty]
  have placed : (account.2.1, idx) ∈
      (accounts.zipIdx.map fun account => (account.1.2.1, account.2)).reverse := by
    refine List.mem_reverse.mpr (List.mem_map.mpr ⟨(account, idx), ?_, rfl⟩)
    exact List.mk_mem_zipIdx_iff_getElem?.mpr present
  cases found : (accounts.zipIdx.map fun account => (account.1.2.1, account.2)).reverse.find?
      fun item => account.2.1 = item.1 with
  | none => exact absurd (List.find?_eq_none.mp found _ placed) (by simp)
  | some item =>
    have same : account.2.1 = item.1 := by simpa using List.find?_some found
    obtain ⟨⟨other, position⟩, member, rfl⟩ :=
      List.mem_map.mp (List.mem_reverse.mp (List.mem_of_find?_eq_some found))
    have there : accounts[position]? = some other := List.mk_mem_zipIdx_iff_getElem?.mp member
    obtain ⟨inside, _⟩ := List.getElem?_eq_some_iff.mp present
    have unique : idx = position := by
      refine (List.getElem?_inj (by simpa using inside) keys).mp ?_
      simpa [present, there] using same
    simp [unique]

/-- **A manager of accounts with distinct ids and keys has distinct entries.** -/
theorem distinct_new {accounts : List NonceAccount} (ids : (accounts.map Prod.fst).Nodup)
    (keys : (accounts.map fun account => account.2.1).Nodup) : (new accounts).Distinct where
  ids := by simpa [NonceManager.ids, new, NonceEntry.new, Function.comp_def] using ids
  indexedAll := by
    intro idx entry present
    simp only [new, List.getElem?_map, Option.map_eq_some_iff] at present
    obtain ⟨account, there, rfl⟩ := present
    exact get_indexAccounts keys there

/-! ## The change an operation makes -/

namespace Operation

/-- What an operation does to the state of an entry it concerns. -/
def change : Operation → NonceState → NonceState
  | .takeReady _, state => state
  | .onAccountUpdate _ new, state => (state.accountUpdate new).1
  | .onObservedLanding _ now, state => state.observedLanding now
  | .onLandingWithBlockhash _ new, state => (state.landingWithBlockhash new).1
  | .tickTimeouts now inFlight awaiting, state => (state.timeout now inFlight awaiting).1
  | .restoreUnchanged _, state => state.restoreUnchanged.1
  | .onFallbackRefresh _ observed, state => state.fallbackRefresh observed

/-- The operation is called with the id or the key of the entry. -/
def Names (entry : NonceEntry) : Operation → Prop
  | .takeReady _ | .tickTimeouts _ _ _ => False
  | .onAccountUpdate pubkey _ | .onFallbackRefresh pubkey _ => entry.pubkey = pubkey
  | .onObservedLanding id _ | .onLandingWithBlockhash id _ | .restoreUnchanged id => entry.id = id

/-- The operation is called with an id or a key. -/
def IsNaming : Operation → Prop
  | .takeReady _ | .tickTimeouts _ _ _ => False
  | .onAccountUpdate _ _ | .onObservedLanding _ _ | .onLandingWithBlockhash _ _
  | .restoreUnchanged _ | .onFallbackRefresh _ _ => True

end Operation

theorem positionOfId_iff (distinct : manager.Distinct) {idx : Nat} {entry : NonceEntry}
    (present : manager.entries[idx]? = some entry) {id : NonceId} :
    manager.positionOfId id = some idx ↔ entry.id = id := by
  constructor
  · intro found
    exact id_of_positionOfId found present
  · rintro rfl
    cases found : manager.positionOfId entry.id with
    | none =>
      have missing := List.findIdx?_eq_none_iff.mp found entry (List.mem_of_getElem? present)
      simp at missing
    | some position =>
      obtain ⟨inside, _⟩ := List.findIdx?_eq_some_iff_getElem.mp found
      have there := List.getElem?_eq_getElem inside
      have same := id_of_positionOfId found there
      rw [position_unique distinct.ids present there same.symm]

theorem pubkeyIndex_iff (distinct : manager.Distinct) {idx : Nat} {entry : NonceEntry}
    (present : manager.entries[idx]? = some entry) {pubkey : Pubkey} :
    manager.pubkeyIndex.get pubkey = some idx ↔ entry.pubkey = pubkey := by
  constructor
  · intro found
    have known := manager.indexed pubkey idx found
    simpa [present] using known
  · rintro rfl
    exact distinct.indexedAll idx entry present

theorem setStateAt_pubkey_getElem? (distinct : manager.Distinct) {idx : Nat} {entry : NonceEntry}
    (present : manager.entries[idx]? = some entry) (pubkey : Pubkey)
    (change : NonceState → NonceState) :
    (manager.setStateAt (manager.pubkeyIndex.get pubkey) change).entries[idx]? =
      some (if entry.pubkey = pubkey then { entry with state := change entry.state }
        else entry) := by
  rw [setStateAt_getElem?, present, Option.map_some]
  exact congrArg some (if_congr (pubkeyIndex_iff distinct present) rfl rfl)

theorem setStateAt_id_getElem? (distinct : manager.Distinct) {idx : Nat} {entry : NonceEntry}
    (present : manager.entries[idx]? = some entry) (id : NonceId)
    (change : NonceState → NonceState) :
    (manager.setStateAt (manager.positionOfId id) change).entries[idx]? =
      some (if entry.id = id then { entry with state := change entry.state } else entry) := by
  rw [setStateAt_getElem?, present, Option.map_some]
  exact congrArg some (if_congr (positionOfId_iff distinct present) rfl rfl)

/-- **An entry that is not named stays as it was.** -/
theorem apply_of_not_names (distinct : manager.Distinct) {operation : Operation} {idx : Nat}
    {entry : NonceEntry} (present : manager.entries[idx]? = some entry)
    (naming : operation.IsNaming) (aside : ¬ operation.Names entry) :
    (apply manager operation).1.entries[idx]? = some entry := by
  cases operation with
  | takeReady _ | tickTimeouts _ _ _ => exact naming.elim
  | onAccountUpdate pubkey _ | onFallbackRefresh pubkey _ =>
    exact (setStateAt_pubkey_getElem? distinct present pubkey _).trans
      (congrArg some (if_neg aside))
  | onObservedLanding id _ | onLandingWithBlockhash id _ | restoreUnchanged id =>
    exact (setStateAt_id_getElem? distinct present id _).trans (congrArg some (if_neg aside))

/-- A timeout changes the state of every entry. -/
theorem tickTimeouts_getElem? {idx : Nat} {entry : NonceEntry}
    (present : manager.entries[idx]? = some entry) (now : Instant) (inFlight awaiting : Duration) :
    (manager.tickTimeouts now inFlight awaiting).1.entries[idx]? =
      some { entry with state := (entry.state.timeout now inFlight awaiting).1 } := by
  simp [tickTimeouts, present]

/-- A call of `takeReady` leaves an entry as it was, or puts it in flight. -/
theorem takeReady_getElem? {idx : Nat} {entry : NonceEntry}
    (present : manager.entries[idx]? = some entry) (now : Instant) :
    (manager.takeReady now).1.entries[idx]? = some entry ∨
      entry.state.isReady = true ∧ (manager.takeReady now).1.entries[idx]? =
        some { entry with state := .inFlight entry.state.carried now } := by
  cases taken : (manager.takeReady now).2 with
  | none => exact .inl ((congrArg (·[idx]?) (takeReady_eq_none taken)).trans present)
  | some out =>
    obtain ⟨position, first, changed⟩ := takeReady_takes taken
    rw [changed, List.getElem?_set]
    by_cases here : position = idx
    · subst here
      have same : entry = _ := Option.some.inj (present.symm.trans first.1)
      subst same
      obtain ⟨inside, _⟩ := List.getElem?_eq_some_iff.mp present
      exact .inr ⟨rfl, by rw [if_pos rfl, if_pos inside]; rfl⟩
    · exact .inl (by rw [if_neg here, present])

/-- Entries keep their position, their id and their key. -/
theorem apply_kept {operation : Operation} {idx : Nat} {entry : NonceEntry}
    (present : manager.entries[idx]? = some entry) :
    ∃ state, (apply manager operation).1.entries[idx]? = some { entry with state := state } := by
  cases operation with
  | takeReady now =>
    rcases takeReady_getElem? present now with same | ⟨_, moved⟩
    · exact ⟨entry.state, same⟩
    · exact ⟨_, moved⟩
  | tickTimeouts now inFlight awaiting =>
    exact ⟨_, tickTimeouts_getElem? present now inFlight awaiting⟩
  | onAccountUpdate _ _ | onObservedLanding _ _ | onLandingWithBlockhash _ _
  | restoreUnchanged _ | onFallbackRefresh _ _ =>
    simp only [apply, onAccountUpdate, onObservedLanding, onLandingWithBlockhash, restoreUnchanged,
      onFallbackRefresh, setStateAt_getElem?, present, Option.map_some]
    split
    · exact ⟨_, rfl⟩
    · exact ⟨entry.state, rfl⟩

theorem apply_length (operation : Operation) :
    (apply manager operation).1.entries.length = manager.entries.length := by
  have same := congrArg List.length (apply_ids manager operation)
  simpa [ids] using same

theorem apply_pubkeyIndex (operation : Operation) :
    (apply manager operation).1.pubkeyIndex = manager.pubkeyIndex := by
  cases operation with
  | takeReady now =>
    simp only [apply, takeReady]
    split
    · rfl
    · split <;> rfl
  | tickTimeouts _ _ _ => rfl
  | onAccountUpdate _ _ | onObservedLanding _ _ | onLandingWithBlockhash _ _
  | restoreUnchanged _ | onFallbackRefresh _ _ =>
    simp only [apply, onAccountUpdate, onObservedLanding, onLandingWithBlockhash, restoreUnchanged,
      onFallbackRefresh, setStateAt]
    split <;> rfl

/-- **Every operation keeps the entries distinct.** -/
theorem Distinct.apply (distinct : manager.Distinct) (operation : Operation) :
    (apply manager operation).1.Distinct where
  ids := by
    rw [apply_ids]
    exact distinct.ids
  indexedAll := by
    intro idx after present
    have inside : idx < manager.entries.length := by
      rw [← apply_length operation]
      exact (List.getElem?_eq_some_iff.mp present).1
    obtain ⟨state, kept⟩ :=
      @apply_kept manager operation idx _ (List.getElem?_eq_getElem inside)
    obtain rfl := Option.some.inj (kept.symm.trans present)
    rw [apply_pubkeyIndex]
    exact distinct.indexedAll idx manager.entries[idx] (List.getElem?_eq_getElem inside)

theorem Distinct.applyAll (distinct : manager.Distinct) (operations : List Operation) :
    (manager.applyAll operations).1.Distinct :=
  runAll_invariant (fun _ operation held => held.apply operation) distinct operations

/-! ## What is reported -/

/-- An operation that reports every change of a state reports the change of the entry
it names. -/
theorem reports_iff {target : Option Nat} {change : NonceState → NonceState × Bool}
    (reports : ∀ state, (change state).2 = true ↔ (change state).1 ≠ state) :
    ((target.bind (manager.entries[·]?)).any fun entry => (change entry.state).2) = true ↔
      ∃ idx entry, manager.entries[idx]? = some entry ∧ target = some idx ∧
        (manager.setStateAt target fun state => (change state).1).entries[idx]? ≠ some entry := by
  simp only [Option.any_eq_true, Option.bind_eq_some_iff, setStateAt_getElem?]
  constructor
  · rintro ⟨entry, ⟨idx, rfl, present⟩, changed⟩
    refine ⟨idx, entry, present, rfl, ?_⟩
    rw [present, Option.map_some, if_pos rfl]
    exact fun same => (reports entry.state).mp changed
      (congrArg NonceEntry.state (Option.some.inj same))
  · rintro ⟨idx, entry, present, rfl, differs⟩
    refine ⟨entry, ⟨idx, rfl, present⟩, (reports entry.state).mpr fun same => differs ?_⟩
    rw [present, Option.map_some, if_pos rfl, same]

theorem mem_tickTimeouts (now : Instant) (inFlight awaiting : Duration) (id : NonceId)
    (pubkey : Pubkey) :
    (id, pubkey) ∈ (manager.tickTimeouts now inFlight awaiting).2 ↔
      ∃ (idx : Nat) (before after : NonceState),
        manager.entries[idx]? = some ⟨id, pubkey, before⟩ ∧
        (manager.tickTimeouts now inFlight awaiting).1.entries[idx]? = some ⟨id, pubkey, after⟩ ∧
        before.isStale = false ∧ after.isStale = true := by
  simp only [tickTimeouts, List.mem_map, List.mem_filter, NonceState.timeout_reports,
    Prod.mk.injEq, mapStates_getElem?]
  constructor
  · rintro ⟨⟨_, _, before⟩, ⟨member, turned⟩, rfl, rfl⟩
    obtain ⟨idx, present⟩ := List.mem_iff_getElem?.mp member
    exact ⟨idx, before, _, present, by rw [present]; rfl, turned⟩
  · rintro ⟨idx, before, after, present, there, turned⟩
    rw [present, Option.map_some, Option.some.injEq, NonceEntry.mk.injEq] at there
    obtain ⟨_, _, rfl⟩ := there
    exact ⟨_, ⟨List.mem_of_getElem? present, turned⟩, rfl, rfl⟩

/-! ## Taking and restoring -/

/-- Between a call and the restoring of what it handed out, the entry stays where it
is, is not ready and carries the value. -/
def Outstanding (manager : NonceManager) (idx : Nat) (id : NonceId) (pubkey : Pubkey)
    (blockhash : Hash) : Prop :=
  ∃ state, manager.entries[idx]? = some ⟨id, pubkey, state⟩ ∧ state.isReady = false ∧
    state.carried = blockhash

theorem isReady_timeout {state : NonceState} (unready : state.isReady = false) (now : Instant)
    (inFlight awaiting : Duration) :
    (state.timeout now inFlight awaiting).1.isReady = false := by
  cases state with
  | ready _ => simp [NonceState.isReady] at unready
  | stale _ _ => rfl
  | inFlight used since | awaitingUpdate used since =>
    simp only [NonceState.timeout]
    split <;> rfl

theorem Outstanding.apply {idx : Nat} {id : NonceId} {pubkey : Pubkey} {blockhash : Hash}
    (outstanding : manager.Outstanding idx id pubkey blockhash) (distinct : manager.Distinct)
    {operation : Operation} (aside : ¬ operation.Names ⟨id, pubkey, .ready blockhash⟩) :
    (apply manager operation).1.Outstanding idx id pubkey blockhash := by
  obtain ⟨state, present, unready, carries⟩ := outstanding
  cases operation with
  | takeReady now =>
    rcases takeReady_getElem? present now with same | ⟨isReady, _⟩
    · exact ⟨state, same, unready, carries⟩
    · simp [unready] at isReady
  | tickTimeouts now inFlight awaiting =>
    refine ⟨_, tickTimeouts_getElem? present now inFlight awaiting, ?_, ?_⟩
    · exact isReady_timeout unready now inFlight awaiting
    · rw [NonceState.carried_timeout, carries]
  | onAccountUpdate _ _ | onObservedLanding _ _ | onLandingWithBlockhash _ _
  | restoreUnchanged _ | onFallbackRefresh _ _ =>
    exact ⟨state, apply_of_not_names distinct present trivial aside, unready, carries⟩

theorem Outstanding.applyAll {idx : Nat} {id : NonceId} {pubkey : Pubkey} {blockhash : Hash}
    (outstanding : manager.Outstanding idx id pubkey blockhash) (distinct : manager.Distinct)
    {between : List Operation}
    (aside : ∀ operation ∈ between, ¬ operation.Names ⟨id, pubkey, .ready blockhash⟩) :
    (manager.applyAll between).1.Outstanding idx id pubkey blockhash := by
  induction between generalizing manager with
  | nil => exact outstanding
  | cons operation rest ih =>
    exact ih (outstanding.apply distinct (aside operation (List.mem_cons_self ..)))
      (distinct.apply operation) fun later member =>
        aside later (List.mem_cons_of_mem _ member)

/-- **What a call handed out is restored as it was**, when no operation between names
the entry. -/
theorem restoreUnchanged_of_takeReady (distinct : manager.Distinct) {now : Instant}
    {id : NonceId} {pubkey : Pubkey} {blockhash : Hash}
    (taken : (manager.takeReady now).2 = some (id, pubkey, blockhash)) {between : List Operation}
    (aside : ∀ operation ∈ between, ¬ operation.Names ⟨id, pubkey, .ready blockhash⟩) :
    ∃ idx : Nat, manager.entries[idx]? = some ⟨id, pubkey, .ready blockhash⟩ ∧
      ((((manager.takeReady now).1.applyAll between).1.restoreUnchanged id).1.entries[idx]? =
        some ⟨id, pubkey, .ready blockhash⟩) ∧
      (((manager.takeReady now).1.applyAll between).1.restoreUnchanged id).2 = true := by
  obtain ⟨idx, first, changed⟩ := takeReady_takes taken
  obtain ⟨inside, _⟩ := List.getElem?_eq_some_iff.mp first.1
  have start : (manager.takeReady now).1.Outstanding idx id pubkey blockhash := by
    refine ⟨.inFlight blockhash now, ?_, rfl, rfl⟩
    rw [changed, List.getElem?_set, if_pos rfl, if_pos inside]
  have apart : (manager.takeReady now).1.Distinct := distinct.apply (.takeReady now)
  have kept := apart.applyAll between
  obtain ⟨state, present, unready, carries⟩ := start.applyAll apart aside
  refine ⟨idx, first.1, ?_, ?_⟩
  · refine (setStateAt_id_getElem? kept present id _).trans ?_
    rw [if_pos rfl, NonceState.restoreUnchanged_eq, carries]
  · have found : ((manager.takeReady now).1.applyAll between).1.getById id = _ :=
      getById_of_position ((positionOfId_iff kept present).mpr rfl) present
    rw [restoreUnchanged, found, Option.any_some, NonceState.restoreUnchanged_reports, unready]
    rfl

/-! ## The frame of the state machine -/

/-- The operations that never change the value an entry carries. -/
def Operation.KeepsValues : Operation → Prop
  | .takeReady _ | .onObservedLanding _ _ | .tickTimeouts _ _ _ | .restoreUnchanged _ => True
  | .onAccountUpdate _ _ | .onLandingWithBlockhash _ _ | .onFallbackRefresh _ _ => False

/-- What the operations change, and what they leave alone. -/
structure StateFrame (manager : NonceManager) : Prop where
  /-- The other operations may change the value of an entry, these do not. -/
  keepsValues : ∀ operation : Operation, operation.KeepsValues → ∀ (idx : Nat) (entry : NonceEntry),
    manager.entries[idx]? = some entry →
      ((apply manager operation).1.entries[idx]?).map (fun after => after.state.carried) =
        some entry.state.carried
  /-- An operation on an id or a key changes at most the entry with it. -/
  changesNamed : ∀ operation : Operation, operation.IsNaming → ∀ (idx : Nat) (entry : NonceEntry),
    manager.entries[idx]? = some entry → ¬ operation.Names entry →
      (apply manager operation).1.entries[idx]? = some entry
  /-- A refresh leaves a stale entry ready with the observed value, and any other
  entry as it was. -/
  refreshesStale : ∀ (observed : Hash) (idx : Nat) (entry : NonceEntry),
    manager.entries[idx]? = some entry →
      (manager.onFallbackRefresh entry.pubkey observed).entries[idx]? =
        some (if entry.state.isStale = true then { entry with state := .ready observed } else entry)
  /-- An update is reported exactly when the state of the entry changed. -/
  reportsUpdate : ∀ (pubkey : Pubkey) (new : Hash),
    (manager.onAccountUpdate pubkey new).2 = true ↔ ∃ (idx : Nat) (entry : NonceEntry),
      manager.entries[idx]? = some entry ∧ entry.pubkey = pubkey ∧
        (manager.onAccountUpdate pubkey new).1.entries[idx]? ≠ some entry
  reportsLanding : ∀ (id : NonceId) (new : Hash),
    (manager.onLandingWithBlockhash id new).2 = true ↔ ∃ (idx : Nat) (entry : NonceEntry),
      manager.entries[idx]? = some entry ∧ entry.id = id ∧
        (manager.onLandingWithBlockhash id new).1.entries[idx]? ≠ some entry
  /-- An operation on an unknown id or key changes nothing. -/
  unknownId : ∀ id : NonceId, (∀ entry ∈ manager.entries, entry.id ≠ id) →
    (∀ now, manager.onObservedLanding id now = manager) ∧
      (∀ new, manager.onLandingWithBlockhash id new = (manager, false)) ∧
      manager.restoreUnchanged id = (manager, false)
  unknownPubkey : ∀ pubkey : Pubkey, (∀ entry ∈ manager.entries, entry.pubkey ≠ pubkey) →
    (∀ new, manager.onAccountUpdate pubkey new = (manager, false)) ∧
      ∀ observed, manager.onFallbackRefresh pubkey observed = manager
  /-- What was handed out is restored as it was. -/
  restores : ∀ (now : Instant) (id : NonceId) (pubkey : Pubkey) (blockhash : Hash),
    (manager.takeReady now).2 = some (id, pubkey, blockhash) →
    ∀ between : List Operation,
      (∀ operation ∈ between, ¬ operation.Names ⟨id, pubkey, .ready blockhash⟩) →
      ∃ idx : Nat, manager.entries[idx]? = some ⟨id, pubkey, .ready blockhash⟩ ∧
        ((((manager.takeReady now).1.applyAll between).1.restoreUnchanged id).1.entries[idx]? =
          some ⟨id, pubkey, .ready blockhash⟩) ∧
        (((manager.takeReady now).1.applyAll between).1.restoreUnchanged id).2 = true
  /-- A timeout lists the entries that it makes stale, each of them once. -/
  listsStale : ∀ (now : Instant) (inFlight awaiting : Duration),
    (∀ (id : NonceId) (pubkey : Pubkey),
      (id, pubkey) ∈ (manager.tickTimeouts now inFlight awaiting).2 ↔
        ∃ (idx : Nat) (before after : NonceState),
          manager.entries[idx]? = some ⟨id, pubkey, before⟩ ∧
          (manager.tickTimeouts now inFlight awaiting).1.entries[idx]? =
            some ⟨id, pubkey, after⟩ ∧
          before.isStale = false ∧ after.isStale = true) ∧
      (manager.tickTimeouts now inFlight awaiting).2.Nodup

theorem apply_keepsValues (distinct : manager.Distinct) {operation : Operation}
    (keeps : operation.KeepsValues) {idx : Nat} {entry : NonceEntry}
    (present : manager.entries[idx]? = some entry) :
    ((apply manager operation).1.entries[idx]?).map (fun after => after.state.carried) =
      some entry.state.carried := by
  cases operation with
  | takeReady now =>
    rcases takeReady_getElem? present now with same | ⟨_, moved⟩
    · exact congrArg (Option.map _) same
    · exact congrArg (Option.map _) moved
  | tickTimeouts now inFlight awaiting =>
    refine (congrArg (Option.map _) (tickTimeouts_getElem? present now inFlight awaiting)).trans ?_
    rw [Option.map_some, NonceState.carried_timeout]
  | onObservedLanding id now =>
    refine (congrArg (Option.map _) (setStateAt_id_getElem? distinct present id _)).trans ?_
    rw [Option.map_some]
    split
    · rw [NonceState.carried_observedLanding]
    · rfl
  | restoreUnchanged id =>
    refine (congrArg (Option.map _) (setStateAt_id_getElem? distinct present id _)).trans ?_
    rw [Option.map_some]
    split
    · rw [NonceState.carried_restoreUnchanged]
    · rfl
  | onAccountUpdate _ _ | onLandingWithBlockhash _ _ | onFallbackRefresh _ _ => exact keeps.elim

theorem positionOfId_eq_none {id : NonceId} (unknown : ∀ entry ∈ manager.entries, entry.id ≠ id) :
    manager.positionOfId id = none := by
  refine List.findIdx?_eq_none_iff.mpr fun entry member => ?_
  simpa using unknown entry member

theorem pubkeyIndex_eq_none {pubkey : Pubkey}
    (unknown : ∀ entry ∈ manager.entries, entry.pubkey ≠ pubkey) :
    manager.pubkeyIndex.get pubkey = none := by
  cases found : manager.pubkeyIndex.get pubkey with
  | none => rfl
  | some idx =>
    have known := manager.indexed pubkey idx found
    obtain ⟨entry, present, same⟩ := Option.map_eq_some_iff.mp known
    exact absurd same (unknown entry (List.mem_of_getElem? present))

theorem tickTimeouts_nodup (distinct : manager.Distinct) (now : Instant)
    (inFlight awaiting : Duration) : (manager.tickTimeouts now inFlight awaiting).2.Nodup := by
  refine List.Nodup.of_map Prod.fst ?_
  rw [tickTimeouts, List.map_map]
  exact distinct.ids.sublist (List.filter_sublist.map NonceEntry.id)

/-- **The frame of the nonce state machine**, in every state of a manager with
distinct ids and keys. -/
theorem stateFrame (distinct : manager.Distinct) : manager.StateFrame where
  keepsValues := fun _ keeps _ _ present => apply_keepsValues distinct keeps present
  changesNamed := fun _ naming _ _ present aside =>
    apply_of_not_names distinct present naming aside
  refreshesStale := by
    intro observed idx entry present
    refine (setStateAt_pubkey_getElem? distinct present entry.pubkey _).trans ?_
    rw [if_pos rfl, NonceState.fallbackRefresh_eq]
    split <;> rfl
  reportsUpdate := by
    intro pubkey new
    refine (reports_iff fun state => NonceState.accountUpdate_reports new).trans ?_
    refine exists_congr fun idx => exists_congr fun entry => and_congr_right fun present => ?_
    exact and_congr_left fun _ => pubkeyIndex_iff distinct present
  reportsLanding := by
    intro id new
    refine (reports_iff fun state => NonceState.landingWithBlockhash_reports new).trans ?_
    refine exists_congr fun idx => exists_congr fun entry => and_congr_right fun present => ?_
    exact and_congr_left fun _ => positionOfId_iff distinct present
  unknownId := by
    intro id unknown
    have missing := positionOfId_eq_none unknown
    simp [onObservedLanding, onLandingWithBlockhash, restoreUnchanged, getById, missing, setStateAt]
  unknownPubkey := by
    intro pubkey unknown
    have missing := pubkeyIndex_eq_none unknown
    simp [onAccountUpdate, onFallbackRefresh, getByPubkey, missing, setStateAt]
  restores := fun _ _ _ _ taken _ aside => restoreUnchanged_of_takeReady distinct taken aside
  listsStale := fun now inFlight awaiting =>
    ⟨mem_tickTimeouts now inFlight awaiting, tickTimeouts_nodup distinct now inFlight awaiting⟩

/-- The frame holds of a manager that hands out, times out and refreshes. -/
theorem stateFrame_three :
    ((new threeAccounts).applyAll
      [.takeReady 0, .takeReady 5, .tickTimeouts 60 58 20]).1.StateFrame :=
  stateFrame ((distinct_new (by decide) (by decide)).applyAll _)

end NonceManager

end SenderAnalysis

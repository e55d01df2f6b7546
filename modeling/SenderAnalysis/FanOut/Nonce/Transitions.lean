import SenderAnalysis.FanOut.Nonce.Manager

/-!
# What an operation does to one nonce entry

The entries keep their position, their id and their key through every operation,
and only their states change. The results about the manager rest on two facts.
What `takeReady` hands out is the value of a ready entry, which is in flight
afterwards (`takeReady_eq_some`). And an entry that is ready with a value after an
operation was ready with it before, or the operation is one of the four that put a
value back (`ready_of_apply`).
-/

set_option autoImplicit false

namespace SenderAnalysis.NonceManager

variable (manager : NonceManager)

/-! ## Positions -/

@[simp] theorem setState_getElem? (idx position : Nat) (change : NonceState → NonceState) :
    (manager.setState idx change).entries[position]? =
      manager.entries[position]?.map fun entry =>
        if idx = position then { entry with state := change entry.state } else entry := by
  simp only [setState, List.getElem?_modify]
  split
  · rfl
  · simp

theorem setStateAt_getElem? (target : Option Nat) (position : Nat)
    (change : NonceState → NonceState) :
    (manager.setStateAt target change).entries[position]? =
      manager.entries[position]?.map fun entry =>
        if target = some position then { entry with state := change entry.state } else entry := by
  cases target with
  | none => simp [setStateAt]
  | some idx => simp [setStateAt]

@[simp] theorem mapStates_getElem? (position : Nat) (change : NonceState → NonceState) :
    (manager.mapStates change).entries[position]? =
      manager.entries[position]?.map fun entry => { entry with state := change entry.state } :=
  List.getElem?_map ..

/-- The first entry with an id has the id. -/
theorem id_of_positionOfId {manager : NonceManager} {id : NonceId} {idx : Nat} {entry : NonceEntry}
    (found : manager.positionOfId id = some idx) (present : manager.entries[idx]? = some entry) :
    entry.id = id := by
  obtain ⟨inBounds, matching, _⟩ := List.findIdx?_eq_some_iff_getElem.mp found
  have same : manager.entries[idx] = entry := by
    rwa [List.getElem?_eq_getElem inBounds, Option.some.injEq] at present
  rw [← same]
  simpa using matching

theorem getById_of_position {manager : NonceManager} {id : NonceId} {idx : Nat}
    {entry : NonceEntry} (found : manager.positionOfId id = some idx)
    (present : manager.entries[idx]? = some entry) : manager.getById id = some entry := by
  rw [getById, found]
  exact present

theorem getByPubkey_of_index {manager : NonceManager} {pubkey : Pubkey} {idx : Nat}
    {entry : NonceEntry} (found : manager.pubkeyIndex.get pubkey = some idx)
    (present : manager.entries[idx]? = some entry) : manager.getByPubkey pubkey = some entry := by
  rw [getByPubkey, found]
  exact present

/-- An entry that is found by an id has the id. -/
theorem getById_eq_some {manager : NonceManager} {id : NonceId} {entry : NonceEntry}
    (found : manager.getById id = some entry) :
    ∃ idx, manager.positionOfId id = some idx ∧ manager.entries[idx]? = some entry ∧
      entry.id = id := by
  obtain ⟨idx, first, there⟩ := Option.bind_eq_some_iff.mp found
  exact ⟨idx, first, there, id_of_positionOfId first there⟩

/-! ## Handing out -/

theorem readyAt_eq_some {manager : NonceManager} {idx position : Nat} {entry : NonceEntry}
    {blockhash : Hash} (found : manager.readyAt idx = some (position, entry, blockhash)) :
    position = idx ∧ manager.entries[idx]? = some entry ∧ entry.state = .ready blockhash := by
  unfold readyAt at found
  split at found
  · next present =>
    split at found
    · next isReady =>
      cases found
      exact ⟨rfl, present, isReady⟩
    all_goals simp at found
  · simp at found

/-- **What is handed out is the value of a ready entry, and only that entry
changes: its value is in flight.** -/
theorem takeReady_eq_some {manager : NonceManager} {now : Instant} {id : NonceId}
    {pubkey : Pubkey} {blockhash : Hash}
    (taken : (manager.takeReady now).2 = some (id, pubkey, blockhash)) :
    ∃ idx entry, manager.entries[idx]? = some entry ∧ entry.id = id ∧ entry.pubkey = pubkey ∧
      entry.state = .ready blockhash ∧
      (manager.takeReady now).1.entries =
        (manager.setState idx fun _ => .inFlight blockhash now).entries := by
  unfold takeReady at taken ⊢
  split at taken
  · simp at taken
  · next inhabited =>
    rw [if_neg inhabited]
    split at taken
    · next idx entry value found =>
      cases taken
      obtain ⟨offset, _, ready⟩ := List.exists_of_findSome?_eq_some found
      obtain ⟨rfl, present, isReady⟩ := readyAt_eq_some ready
      exact ⟨_, entry, present, rfl, rfl, isReady, rfl⟩
    · simp at taken

/-- Where nothing is handed out, no entry changes. -/
theorem takeReady_eq_none {manager : NonceManager} {now : Instant}
    (taken : (manager.takeReady now).2 = none) :
    (manager.takeReady now).1.entries = manager.entries := by
  unfold takeReady at taken ⊢
  split
  · rfl
  · next inhabited =>
    rw [if_neg inhabited] at taken
    split at taken
    · simp at taken
    · rfl

/-! ## Becoming ready -/

/-- An operation that makes an entry ready with a value: the value is observed on
the account or computed for a landing, the entry is restored with the value it
carries, or it is stale and the value is fetched. -/
inductive PutsBack (entry : NonceEntry) (value : Hash) : Operation → Prop where
  | accountUpdate {pubkey : Pubkey} (found : manager.getByPubkey pubkey = some entry) :
      PutsBack entry value (.onAccountUpdate pubkey value)
  | landing {id : NonceId} (found : manager.getById id = some entry) :
      PutsBack entry value (.onLandingWithBlockhash id value)
  | restore {id : NonceId} (found : manager.getById id = some entry)
      (carries : entry.state.carried = value) : PutsBack entry value (.restoreUnchanged id)
  | refresh {pubkey : Pubkey} (found : manager.getByPubkey pubkey = some entry)
      (isStale : entry.state.isStale = true) :
      PutsBack entry value (.onFallbackRefresh pubkey value)

/-- The change of one entry's state at a position that a search led to. -/
theorem ready_of_setStateAt {manager : NonceManager} {target : Option Nat} {position : Nat}
    {change : NonceState → NonceState} {after : NonceEntry} {value : Hash}
    (present : (manager.setStateAt target change).entries[position]? = some after)
    (isReady : after.state = .ready value) :
    ∃ before, manager.entries[position]? = some before ∧ before.id = after.id ∧
      before.pubkey = after.pubkey ∧
      (before.state = .ready value ∨
        target = some position ∧ change before.state = .ready value) := by
  rw [setStateAt_getElem?, Option.map_eq_some_iff] at present
  obtain ⟨before, found, rfl⟩ := present
  refine ⟨before, found, ?_⟩
  split at isReady
  · next here => exact ⟨by simp [here], by simp [here], .inr ⟨here, isReady⟩⟩
  · next elsewhere => exact ⟨by simp [elsewhere], by simp [elsewhere], .inl isReady⟩

theorem accountUpdate_eq_ready {state : NonceState} {new value : Hash}
    (isReady : (state.accountUpdate new).1 = .ready value) :
    state = .ready value ∨ new = value := by
  unfold NonceState.accountUpdate at isReady
  split at isReady
  · exact .inr (by simpa using isReady)
  · exact .inl isReady

theorem landingWithBlockhash_eq_ready {state : NonceState} {new value : Hash}
    (isReady : (state.landingWithBlockhash new).1 = .ready value) :
    state = .ready value ∨ new = value := by
  cases state with
  | ready blockhash =>
    simp only [NonceState.landingWithBlockhash] at isReady
    split at isReady
    · exact .inr (by simpa using isReady)
    · exact .inl isReady
  | inFlight _ _ | awaitingUpdate _ _ | stale _ _ =>
    exact .inr (by simpa [NonceState.landingWithBlockhash] using isReady)

theorem restoreUnchanged_eq_ready {state : NonceState} {value : Hash}
    (isReady : state.restoreUnchanged.1 = .ready value) : state.carried = value := by
  cases state <;> simpa [NonceState.restoreUnchanged, NonceState.carried] using isReady

theorem fallbackRefresh_eq_ready {state : NonceState} {observed value : Hash}
    (isReady : state.fallbackRefresh observed = .ready value) :
    state = .ready value ∨ state.isStale = true ∧ observed = value := by
  cases state with
  | ready _ | inFlight _ _ | awaitingUpdate _ _ => exact .inl isReady
  | stale used since =>
    refine .inr ⟨rfl, ?_⟩
    simp only [NonceState.fallbackRefresh] at isReady
    split at isReady
    · next same => exact same ▸ by simpa using isReady
    · simpa using isReady

theorem timeout_eq_ready {state : NonceState} {now : Instant} {inFlight awaiting : Duration}
    {value : Hash} (isReady : (state.timeout now inFlight awaiting).1 = .ready value) :
    state = .ready value := by
  cases state with
  | ready _ | stale _ _ => exact isReady
  | inFlight used since | awaitingUpdate used since =>
    simp only [NonceState.timeout] at isReady
    split at isReady <;> simp at isReady

/-- **An entry that is ready with a value after an operation was ready with it
before, or the operation put the value back.** -/
theorem ready_of_apply {manager : NonceManager} {operation : Operation} {position : Nat}
    {after : NonceEntry} {value : Hash}
    (present : (apply manager operation).1.entries[position]? = some after)
    (isReady : after.state = .ready value) :
    ∃ before, manager.entries[position]? = some before ∧ before.id = after.id ∧
      before.pubkey = after.pubkey ∧
      (before.state = .ready value ∨ PutsBack manager before value operation) := by
  cases operation with
  | takeReady now =>
    cases taken : (manager.takeReady now).2 with
    | none =>
      rw [apply, takeReady_eq_none taken] at present
      exact ⟨after, present, rfl, rfl, .inl isReady⟩
    | some out =>
      obtain ⟨idx, entry, _, _, _, _, changed⟩ := takeReady_eq_some taken
      rw [apply, changed, setState_getElem?, Option.map_eq_some_iff] at present
      obtain ⟨before, found, rfl⟩ := present
      split at isReady
      · simp at isReady
      · next elsewhere =>
        exact ⟨before, found, by simp [elsewhere], by simp [elsewhere], .inl isReady⟩
  | onAccountUpdate pubkey new =>
    obtain ⟨before, found, sameId, samePubkey, old | ⟨here, changed⟩⟩ :=
      ready_of_setStateAt present isReady
    · exact ⟨before, found, sameId, samePubkey, .inl old⟩
    · refine ⟨before, found, sameId, samePubkey, ?_⟩
      rcases accountUpdate_eq_ready changed with old | rfl
      · exact .inl old
      · exact .inr (.accountUpdate (getByPubkey_of_index here found))
  | onObservedLanding id now =>
    obtain ⟨before, found, sameId, samePubkey, old | ⟨here, changed⟩⟩ :=
      ready_of_setStateAt present isReady
    · exact ⟨before, found, sameId, samePubkey, .inl old⟩
    · refine ⟨before, found, sameId, samePubkey, .inl ?_⟩
      cases state : before.state <;> simp_all [NonceState.observedLanding]
  | onLandingWithBlockhash id new =>
    obtain ⟨before, found, sameId, samePubkey, old | ⟨here, changed⟩⟩ :=
      ready_of_setStateAt present isReady
    · exact ⟨before, found, sameId, samePubkey, .inl old⟩
    · refine ⟨before, found, sameId, samePubkey, ?_⟩
      rcases landingWithBlockhash_eq_ready changed with old | rfl
      · exact .inl old
      · exact .inr (.landing (getById_of_position here found))
  | tickTimeouts now inFlight awaiting =>
    simp only [apply, tickTimeouts, mapStates_getElem?, Option.map_eq_some_iff] at present
    obtain ⟨before, found, rfl⟩ := present
    exact ⟨before, found, rfl, rfl, .inl (timeout_eq_ready isReady)⟩
  | restoreUnchanged id =>
    obtain ⟨before, found, sameId, samePubkey, old | ⟨here, changed⟩⟩ :=
      ready_of_setStateAt present isReady
    · exact ⟨before, found, sameId, samePubkey, .inl old⟩
    · refine ⟨before, found, sameId, samePubkey, .inr ?_⟩
      exact .restore (getById_of_position here found) (restoreUnchanged_eq_ready changed)
  | onFallbackRefresh pubkey observed =>
    obtain ⟨before, found, sameId, samePubkey, old | ⟨here, changed⟩⟩ :=
      ready_of_setStateAt present isReady
    · exact ⟨before, found, sameId, samePubkey, .inl old⟩
    · refine ⟨before, found, sameId, samePubkey, ?_⟩
      rcases fallbackRefresh_eq_ready changed with old | ⟨isStale, rfl⟩
      · exact .inl old
      · exact .inr (.refresh (getByPubkey_of_index here found) isStale)

/-! ## Ids and keys -/

/-- The ids of the entries, which no operation changes. -/
def ids : List NonceId := manager.entries.map NonceEntry.id

@[simp] theorem setState_ids (idx : Nat) (change : NonceState → NonceState) :
    (manager.setState idx change).ids = manager.ids := by
  refine List.ext_getElem? fun position => ?_
  simp only [ids, List.getElem?_map, setState_getElem?, Option.map_map]
  congr 1
  funext entry
  simp only [Function.comp_apply]
  split <;> rfl

@[simp] theorem setStateAt_ids (target : Option Nat) (change : NonceState → NonceState) :
    (manager.setStateAt target change).ids = manager.ids := by
  cases target with
  | none => rfl
  | some idx => exact setState_ids manager idx change

@[simp] theorem mapStates_ids (change : NonceState → NonceState) :
    (manager.mapStates change).ids = manager.ids := by
  simp [ids, mapStates, Function.comp_def]

theorem takeReady_ids (now : Instant) : (manager.takeReady now).1.ids = manager.ids := by
  cases taken : (manager.takeReady now).2 with
  | none => simp only [ids, takeReady_eq_none taken]
  | some out =>
    obtain ⟨idx, entry, _, _, _, _, changed⟩ := takeReady_eq_some taken
    rw [ids, changed]
    exact setState_ids manager idx _

theorem apply_ids (operation : Operation) : (apply manager operation).1.ids = manager.ids := by
  cases operation with
  | takeReady now => exact takeReady_ids manager now
  | tickTimeouts now inFlight awaiting => exact mapStates_ids manager _
  | onAccountUpdate _ _ | onObservedLanding _ _ | onLandingWithBlockhash _ _
  | restoreUnchanged _ | onFallbackRefresh _ _ => exact setStateAt_ids manager _ _

/-- With distinct ids, an id names one position. -/
theorem position_unique {manager : NonceManager} (distinct : manager.ids.Nodup) {first second : Nat}
    {one other : NonceEntry} (found : manager.entries[first]? = some one)
    (found' : manager.entries[second]? = some other) (same : one.id = other.id) :
    first = second := by
  have inBounds : first < manager.ids.length := by
    obtain ⟨bound, _⟩ := List.getElem?_eq_some_iff.mp found
    simpa [ids] using bound
  refine (List.getElem?_inj inBounds distinct).mp ?_
  simp [ids, found, found', same]

end SenderAnalysis.NonceManager

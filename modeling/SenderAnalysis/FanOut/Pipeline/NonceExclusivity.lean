import SenderAnalysis.FanOut.Nonce.SpentValues
import SenderAnalysis.FanOut.Pipeline.LiveTransactions
import SenderAnalysis.Foundations.Leases

/-!
# Exclusive use of nonce values

A nonce value is leased to the trigger it is taken for. The steps of the threads
are steps of leases (`step_leases`), so in every run in which no value that is held
comes back to its nonce, live triggers hold distinct values and `takeReady` returns
a value that no live trigger holds (`taken_not_held`).

Two operations can bring a held value back. A stale nonce is made ready with the
value that is fetched for it, and that is the value in flight when nothing landed.
And a value computed for a late landing is made ready at once, also when it was
fetched before and is in flight again.
-/

set_option autoImplicit false

namespace SenderAnalysis.TriggerLives

open NonceManager

/-! ## The steps of the threads are steps of leases -/

/-- The ready values are leased to the live triggers. -/
def leases (state : State) : Leases (NonceId × Hash) where
  ready := {value | ∃ (position : Nat) (entry : NonceEntry),
    state.manager.entries[position]? = some entry ∧ entry.id = value.1 ∧
      entry.state = .ready value.2}
  held := state.live.map LiveTrigger.nonceValue

/-- A live trigger holds the value of a nonce. -/
def Held (state : State) (id : NonceId) (value : Hash) : Prop :=
  ∃ trigger ∈ state.live, trigger.nonceId = id ∧ trigger.blockhash = value

instance (state : State) (id : NonceId) (value : Hash) : Decidable (Held state id value) :=
  inferInstanceAs (Decidable (∃ trigger ∈ state.live, _))

theorem mem_held {state : State} {id : NonceId} {value : Hash} :
    (id, value) ∈ (leases state).held ↔ Held state id value := by
  simp only [leases, List.mem_map, LiveTrigger.nonceValue, Prod.mk.injEq, Held]

/-- No value that is held comes back with the input: a computed value is not held
for its nonce, and neither is a value that is fetched for a stale nonce. -/
def KeepsHeld (state : State) : Input → Prop
  | .onLandingWithBlockhash id new => ¬ Held state id new
  | .onFallbackRefresh pubkey observed =>
      ∀ entry, state.manager.getByPubkey pubkey = some entry → entry.state.isStale = true →
        ¬ Held state entry.id observed
  | .fetch _ _ _ | .insert _ | .evict _ _ | .dispatch _ | .finalise _ _
  | .onObservedLanding _ _ | .tickTimeouts _ _ _ => True

/-- An operation that puts no held value back restocks. -/
theorem manage_leases (state : State) (operation : Operation)
    (free : ∀ id value, PutsBackAt state.manager id value operation → ¬ Held state id value) :
    Leases.Step (leases state) (leases (manage state operation)) := by
  refine .restock (leases state) (leases (manage state operation)).ready ?_
  rintro ⟨id, value⟩ ⟨position, after, present, own, isReady⟩
  obtain ⟨before, found, sameId, _, old | back⟩ := ready_of_apply present isReady
  · exact .inl ⟨position, before, found, sameId.trans own, old⟩
  · refine .inr ?_
    rw [mem_held]
    exact free id value ⟨before, sameId.trans own, back⟩

/-- A trigger whose stage changes keeps its value, and triggers that are no longer
live release theirs. -/
theorem release_of_sublist {state : State} {live : List LiveTrigger} {pool : TxPool}
    {preparer : Preparer.State}
    (fewer : (live.map LiveTrigger.nonceValue).Sublist (state.live.map LiveTrigger.nonceValue)) :
    Leases.Step (leases state)
      (leases { state with live := live, pool := pool, preparer := preparer }) :=
  .release (leases state) (live.map LiveTrigger.nonceValue) fewer

theorem map_nonceValue {live : List LiveTrigger} {change : LiveTrigger → LiveTrigger}
    (same : ∀ trigger, (change trigger).nonceValue = trigger.nonceValue) :
    (live.map change).map LiveTrigger.nonceValue = live.map LiveTrigger.nonceValue := by
  rw [List.map_map]
  exact List.map_congr_left fun trigger _ => same trigger

/-- Changed triggers of which some are no longer live hold no more values. -/
theorem filter_map_nonceValue {live : List LiveTrigger} {change : LiveTrigger → LiveTrigger}
    (same : ∀ trigger, (change trigger).nonceValue = trigger.nonceValue)
    (test : LiveTrigger → Bool) :
    (((live.map change).filter test).map LiveTrigger.nonceValue).Sublist
      (live.map LiveTrigger.nonceValue) := by
  have fewer := (List.filter_sublist : ((live.map change).filter test).Sublist _).map
    LiveTrigger.nonceValue
  rwa [map_nonceValue same] at fewer

theorem inserted_nonceValue (entry : ScheduleEntry) (trigger : LiveTrigger) :
    (trigger.inserted entry).nonceValue = trigger.nonceValue := by
  unfold LiveTrigger.inserted
  split
  · rfl
  · split <;> rfl
  · rfl
  · rfl

theorem dispatched_nonceValue (entry : ScheduleEntry) (attempts : List PreSignedTx)
    (trigger : LiveTrigger) :
    (trigger.dispatched entry attempts).nonceValue = trigger.nonceValue := by
  unfold LiveTrigger.dispatched
  split <;> rfl

theorem finalised_nonceValue (signature : Signature) (trigger : LiveTrigger) :
    (trigger.finalised signature).nonceValue = trigger.nonceValue := by
  unfold LiveTrigger.finalised
  split <;> rfl

/-- Taking a nonce is a lease. -/
theorem takeNonce_leases {state : State} (distinct : state.manager.ids.Nodup)
    (preparer : Preparer.State) (entry : ScheduleEntry) (now : Instant)
    (idle : preparer.signing = none) :
    Relation.ReflTransGen Leases.Step (leases state)
      (leases { state with
        preparer := (Preparer.takeNonce preparer state.manager entry now).1
        manager := (Preparer.takeNonce preparer state.manager entry now).2
        live := (opened (Preparer.takeNonce preparer state.manager entry now).1).toList ++
          state.live }) := by
  unfold Preparer.takeNonce
  cases taken : (state.manager.takeReady now).2 with
  | none =>
    have still : opened { preparer with pending := some entry } = none := by
      simp [opened, idle]
    simp only [still, Option.toList_none, List.nil_append]
    refine .single (.restock (leases state) _ ?_)
    rintro value ⟨position, other, present, rest⟩
    rw [takeReady_eq_none taken] at present
    exact .inl ⟨position, other, present, rest⟩
  | some out =>
    obtain ⟨id, pubkey, blockhash⟩ := out
    obtain ⟨idx, nonce, present, ownId, _, isReady, changed⟩ := takeReady_eq_some taken
    have ready : (id, blockhash) ∈ (leases state).ready := ⟨idx, nonce, present, ownId, isReady⟩
    refine .tail (.single (.lease (leases state) (id, blockhash) ready)) ?_
    refine .restock ⟨(leases state).ready \ {(id, blockhash)}, _⟩ _ ?_
    rintro ⟨otherId, value⟩ ⟨position, after, found, own, stillReady⟩
    simp only [changed, setState_getElem?, Option.map_eq_some_iff] at found
    obtain ⟨before, old, rfl⟩ := found
    refine .inl ?_
    split at stillReady
    · simp at stillReady
    · next elsewhere =>
      simp only [if_neg elsewhere] at own
      refine ⟨⟨position, before, old, own, stillReady⟩, ?_⟩
      intro same
      cases same
      exact elsewhere (position_unique distinct present old (ownId.trans own.symm))

/-- **Every step of a thread that brings no held value back amounts to steps of
leases.** -/
theorem step_leases {cfg : Dispatcher.Config} {state : State} (distinct : state.manager.ids.Nodup)
    {input : Input} (keeps : KeepsHeld state input) :
    Relation.ReflTransGen Leases.Step (leases state) (leases (step cfg state input)) := by
  cases input with
  | fetch received currentSlot now =>
    simp only [step, fetch]
    split
    · exact .refl
    · next idle =>
      rw [Option.not_isSome_iff_eq_none] at idle
      have unchanged := nextEntry_signing state.preparer received currentSlot
      split
      · exact .refl
      · next preparer entry found =>
        rw [found] at unchanged
        exact takeNonce_leases distinct preparer entry now (unchanged.trans idle)
  | insert signed =>
    simp only [step, insert]
    split
    · exact .refl
    · refine .single (release_of_sublist ?_)
      rw [map_nonceValue (inserted_nonceValue _)]
  | evict currentSlot now =>
    simp only [step, evict]
    refine .single (release_of_sublist ?_)
    split
    · exact List.filter_sublist.map _
    · exact List.Sublist.refl _
  | dispatch trig =>
    simp only [step, dispatch]
    refine .single (release_of_sublist ?_)
    split
    · exact filter_map_nonceValue (dispatched_nonceValue _ _) _
    · exact List.Sublist.refl _
  | finalise target signature =>
    simp only [step, finalise]
    refine .single (release_of_sublist (filter_map_nonceValue ?_ _))
    intro trigger
    split
    · exact finalised_nonceValue signature trigger
    · rfl
  | onObservedLanding id now =>
    refine .single (manage_leases state _ ?_)
    rintro _ _ ⟨_, _, ⟨⟩⟩
  | onLandingWithBlockhash id new =>
    refine .single (manage_leases state _ ?_)
    rintro _ _ ⟨entry, rfl, back⟩
    cases back with
    | landing found =>
      obtain ⟨_, _, _, ownId⟩ := getById_eq_some found
      exact ownId ▸ keeps
  | tickTimeouts now inFlight awaiting =>
    refine .single (manage_leases state _ ?_)
    rintro _ _ ⟨_, _, ⟨⟩⟩
  | onFallbackRefresh pubkey observed =>
    refine .single (manage_leases state _ ?_)
    rintro _ _ ⟨entry, rfl, back⟩
    cases back with
    | refresh found isStale => exact keeps entry found isStale

theorem step_ids (cfg : Dispatcher.Config) (state : State) (input : Input) :
    (step cfg state input).manager.ids = state.manager.ids := by
  cases input with
  | fetch received currentSlot now =>
    simp only [step, fetch]
    split
    · rfl
    · split
      · rfl
      · simp only [Preparer.takeNonce]
        split <;> exact takeReady_ids state.manager now
  | insert signed =>
    simp only [step, insert]
    split <;> rfl
  | evict _ _ | dispatch _ | finalise _ _ => rfl
  | onObservedLanding _ _ | onLandingWithBlockhash _ _ | tickTimeouts _ _ _
  | onFallbackRefresh _ _ => exact apply_ids state.manager _

/-! ## Exclusive use -/

theorem initial_exclusive (accounts : List NonceAccount) (startedAt : Instant) :
    (leases (initial accounts startedAt)).Exclusive where
  free := by simp [leases, initial]
  single := by simp [leases, initial]

theorem run_ids (cfg : Dispatcher.Config) (accounts : List NonceAccount) (startedAt : Instant)
    (inputs : List Input) :
    (run cfg accounts startedAt inputs).manager.ids = accounts.map Prod.fst := by
  induction inputs using List.reverseRecOn with
  | nil => exact ids_new accounts
  | append_singleton past input ih => rw [run_concat, step_ids, ih]

/-- The run brings no value back that is held. -/
def NeverHandsBack (cfg : Dispatcher.Config) (accounts : List NonceAccount)
    (startedAt : Instant) (inputs : List Input) : Prop :=
  EachAfter (fun past input => KeepsHeld (run cfg accounts startedAt past) input) inputs

/-- **Leases are exclusive in every run that brings no held value back.** -/
theorem run_exclusive {cfg : Dispatcher.Config} {accounts : List NonceAccount}
    (distinct : DistinctIds accounts) {startedAt : Instant} {inputs : List Input}
    (keeps : NeverHandsBack cfg accounts startedAt inputs) :
    (leases (run cfg accounts startedAt inputs)).Exclusive := by
  induction inputs using List.reverseRecOn with
  | nil => exact initial_exclusive accounts startedAt
  | append_singleton past input ih =>
    obtain ⟨earlier, last⟩ := eachAfter_concat.mp keeps
    rw [run_concat]
    refine Leases.exclusive_of_run (step_leases ?_ last) (ih earlier)
    rw [run_ids]
    exact distinct

/-- The value `takeReady` would return now. -/
def nextValue (state : State) (now : Instant) : Option (NonceId × Hash) :=
  (state.manager.takeReady now).2.map fun taken => (taken.1, taken.2.2)

/-- A transaction that may still land for a live trigger: it is in the pool, or its
attempt is not final. -/
inductive Outstanding (state : State) (trigger : LiveTrigger) (tx : PreSignedTx) : Prop where
  | pooled (txs : List PreSignedTx) (stage : trigger.stage = .pooled)
      (present : state.pool.get (trigger.entry.slot, trigger.entry.tick) = some txs)
      (member : tx ∈ txs)
  | dispatched (attempts : List PreSignedTx) (stage : trigger.stage = .dispatched attempts)
      (member : tx ∈ attempts)

/-- The transactions of a live trigger are signed with the value it holds. -/
theorem Tied.outstanding {state : State} (tied : Tied state) {trigger : LiveTrigger}
    (live : trigger ∈ state.live) {tx : PreSignedTx} (out : Outstanding state trigger tx) :
    nonceValue? tx = some trigger.nonceValue := by
  cases out with
  | pooled txs stage present member =>
    obtain ⟨holder, live', stage', placed, carries⟩ := tied.pooled _ _ txs present tx member
    rw [tied.single trigger live holder live' stage stage' placed.symm]
    exact carries
  | dispatched attempts stage member => exact tied.attempts trigger live attempts stage tx member

/-- **`takeReady` never returns a value that a live trigger holds, and no two live
triggers carry transactions on the same nonce value.** The accounts have distinct
ids. In the run, no value is fetched for a stale nonce and none is computed for a
landing that a live trigger holds for the nonce at that moment. -/
theorem taken_not_held (cfg : Dispatcher.Config) (accounts : List NonceAccount)
    (distinct : DistinctIds accounts) (startedAt : Instant) (inputs : List Input)
    (keeps : NeverHandsBack cfg accounts startedAt inputs) :
    (∀ now id value, nextValue (run cfg accounts startedAt inputs) now = some (id, value) →
      ¬ Held (run cfg accounts startedAt inputs) id value) ∧
    ((run cfg accounts startedAt inputs).live.map LiveTrigger.nonceValue).Nodup ∧
    ∀ trigger ∈ (run cfg accounts startedAt inputs).live, ∀ tx,
      Outstanding (run cfg accounts startedAt inputs) trigger tx →
        nonceValue? tx = some trigger.nonceValue := by
  have exclusive := run_exclusive distinct keeps
  refine ⟨?_, exclusive.single, ?_⟩
  · intro now id value taken
    obtain ⟨⟨ownId, pubkey, blockhash⟩, found, same⟩ := Option.map_eq_some_iff.mp taken
    cases same
    obtain ⟨idx, entry, present, own, _, isReady, _⟩ := takeReady_eq_some found
    rw [← mem_held]
    exact exclusive.free _ ⟨idx, entry, present, own, isReady⟩
  · intro trigger live tx out
    exact (run_tied cfg accounts startedAt inputs).outstanding live out

/-- No sender is configured. -/
def noSenders : Dispatcher.Config := ⟨[], .empty⟩

/-- A nonce is taken for a trigger and goes stale in the pool, and a value is fetched
for it. -/
def staleInputs (fetched : Hash) : List Input :=
  [.fetch (some ⟨100, 1⟩) 0 0, .insert [(1, Samples.signature 1)], .tickTimeouts 45 45 15,
    .onFallbackRefresh (Samples.hash 1) fetched]

/-- The run hands a held value back: `takeReady` returns it next. -/
def HandsBack (accounts : List NonceAccount) (inputs : List Input) (id : NonceId) (value : Hash) :
    Prop :=
  nextValue (run noSenders accounts 0 inputs) 50 = some (id, value) ∧
    Held (run noSenders accounts 0 inputs) id value

instance (accounts : List NonceAccount) (inputs : List Input) (id : NonceId) (value : Hash) :
    Decidable (HandsBack accounts inputs id value) :=
  inferInstanceAs (Decidable (_ ∧ _))

/-- The value in flight is fetched for the stale nonce and returned again. So is a
value that was fetched and taken, when it is computed for a late landing, and the
value of a second nonce with the same id. -/
theorem staleInputs_handBack :
    HandsBack [soleAccount] (staleInputs (Samples.hash 2)) 7 (Samples.hash 2) ∧
      HandsBack [soleAccount] (staleInputs (Samples.hash 3) ++ [.fetch (some ⟨101, 1⟩) 0 46,
        .onLandingWithBlockhash 7 (Samples.hash 3)]) 7 (Samples.hash 3) ∧
      HandsBack [soleAccount, (7, Samples.hash 3, Samples.hash 2)] [.fetch (some ⟨100, 1⟩) 0 0] 7
        (Samples.hash 2) := by
  decide +kernel

theorem staleInputs_keepHeld :
    NeverHandsBack noSenders [soleAccount] 0 (staleInputs (Samples.hash 3)) := by
  refine (@eachAfter_concat _ _ [_, _, _] _).mpr ⟨(@eachAfter_concat _ _ [_, _] _).mpr
    ⟨(@eachAfter_concat _ _ [_] _).mpr ⟨(@eachAfter_concat _ _ [] _).mpr
      ⟨eachAfter_nil _, trivial⟩, trivial⟩, trivial⟩, ?_⟩
  intro entry found isStale
  have ids : ((run noSenders [soleAccount] 0 [.fetch (some ⟨100, 1⟩) 0 0,
      .insert [(1, Samples.signature 1)], .tickTimeouts 45 45 15]).manager.getByPubkey
        (Samples.hash 1)).map NonceEntry.id = some 7 := by
    decide +kernel
  have same : entry.id = 7 := by simpa [found] using ids
  rw [same]
  decide +kernel

/-- Another value is fetched for the stale nonce and returned. -/
theorem taken_not_held_newValue :
    nextValue (run noSenders [soleAccount] 0 (staleInputs (Samples.hash 3))) 50 =
        some (7, Samples.hash 3) ∧
      ¬ Held (run noSenders [soleAccount] 0 (staleInputs (Samples.hash 3))) 7 (Samples.hash 3) :=
  have taken : nextValue (run noSenders [soleAccount] 0 (staleInputs (Samples.hash 3))) 50 =
      some (7, Samples.hash 3) := by decide +kernel
  ⟨taken, (taken_not_held noSenders [soleAccount] (by decide +kernel) 0 _ staleInputs_keepHeld).1
    50 7 (Samples.hash 3) taken⟩

end SenderAnalysis.TriggerLives

import SenderAnalysis.FanOut.Nonce.Transitions
import SenderAnalysis.FanOut.Samples
import SenderAnalysis.Foundations.Traces

/-!
# Spent nonce values

A landing spends the value a nonce carries. After `onObservedLanding` the entry no
longer hands the value out, until an operation puts it back. Two of the recovery
operations do: `restoreUnchanged` presumes that the carried value is unspent, and
`onFallbackRefresh` takes the value that was fetched for a stale entry as it is,
also from a node that lags behind. Both accept that a transaction is signed with a
spent value, which costs nothing. Without them a spent value is never handed out
again (`spent_not_reissued`).
-/

set_option autoImplicit false

namespace SenderAnalysis.NonceManager

/-- The ids of a list of accounts are distinct. -/
def DistinctIds (accounts : List NonceAccount) : Prop := (accounts.map Prod.fst).Nodup

instance (accounts : List NonceAccount) : Decidable (DistinctIds accounts) :=
  inferInstanceAs (Decidable (List.Nodup _))

theorem ids_new (accounts : List NonceAccount) : (new accounts).ids = accounts.map Prod.fst := by
  simp [ids, new, NonceEntry.new, Function.comp_def]

/-- The manager of a list of accounts after some operations. -/
def managerAfter (accounts : List NonceAccount) (operations : List Operation) : NonceManager :=
  (applyAll (new accounts) operations).1

theorem managerAfter_concat (accounts : List NonceAccount) (past : List Operation)
    (operation : Operation) :
    managerAfter accounts (past ++ [operation]) =
      (apply (managerAfter accounts past) operation).1 := by
  simp only [managerAfter, applyAll, runAll_concat]

theorem managerAfter_ids (accounts : List NonceAccount) (operations : List Operation) :
    (managerAfter accounts operations).ids = accounts.map Prod.fst := by
  induction operations using List.reverseRecOn with
  | nil => exact ids_new accounts
  | append_singleton past operation ih => rw [managerAfter_concat, apply_ids, ih]

/-- What the operations hand out, after some others. -/
def handedOut (accounts : List NonceAccount) (before later : List Operation) :
    List (NonceId × Pubkey × Hash) :=
  (applyAll (managerAfter accounts before) later).2

/-- No entry with the id is ready with the value. -/
def NotReady (manager : NonceManager) (id : NonceId) (value : Hash) : Prop :=
  ∀ (position : Nat) (entry : NonceEntry), manager.entries[position]? = some entry →
    entry.id = id → entry.state ≠ .ready value

/-- The operation puts the value back at an entry with the id. -/
def PutsBackAt (manager : NonceManager) (id : NonceId) (value : Hash) (operation : Operation) :
    Prop :=
  ∃ entry, entry.id = id ∧ PutsBack manager entry value operation

/-- The value a refresh puts back is the one that was fetched. -/
theorem fetched_of_putsBack {manager : NonceManager} {entry : NonceEntry} {value observed : Hash}
    {pubkey : Pubkey} (back : PutsBack manager entry value (.onFallbackRefresh pubkey observed)) :
    observed = value := by
  cases back
  rfl

section Steps

variable {manager : NonceManager} {operation : Operation} {id : NonceId} {value : Hash}

/-- A value stays away until an operation puts it back. -/
theorem apply_notReady (away : NotReady manager id value)
    (kept : ¬ PutsBackAt manager id value operation) :
    NotReady (apply manager operation).1 id value := by
  intro position after present own isReady
  obtain ⟨before, found, sameId, _, old | back⟩ := ready_of_apply present isReady
  · exact away position before found (sameId.trans own) old
  · exact kept ⟨before, sameId.trans own, back⟩

/-- A value that no entry is ready with is not handed out. -/
theorem apply_not_handedOut (away : NotReady manager id value) (pubkey : Pubkey) :
    (id, pubkey, value) ∉ (apply manager operation).2 := by
  intro handed
  cases operation with
  | takeReady now =>
    have taken : (manager.takeReady now).2 = some (id, pubkey, value) := by
      simpa [apply] using handed
    obtain ⟨idx, entry, present, own, _, isReady, _⟩ := takeReady_eq_some taken
    exact away idx entry present own isReady
  | onAccountUpdate _ _ | onObservedLanding _ _ | onLandingWithBlockhash _ _
  | tickTimeouts _ _ _ | restoreUnchanged _ | onFallbackRefresh _ _ => simp [apply] at handed

end Steps

/-- **A value that is away is not handed out in any run in which no operation puts
it back.** -/
theorem applyAll_not_handedOut {manager : NonceManager} {id : NonceId} {value : Hash}
    (away : NotReady manager id value) (operations : List Operation)
    (kept : EachAfter (fun past operation =>
      ¬ PutsBackAt (applyAll manager past).1 id value operation) operations) :
    NotReady (applyAll manager operations).1 id value ∧
      ∀ pubkey, (id, pubkey, value) ∉ (applyAll manager operations).2 := by
  induction operations using List.reverseRecOn with
  | nil => exact ⟨away, by simp [applyAll]⟩
  | append_singleton past operation ih =>
    obtain ⟨earlier, last⟩ := eachAfter_concat.mp kept
    obtain ⟨stillAway, none?⟩ := ih earlier
    rw [applyAll, runAll_concat]
    refine ⟨apply_notReady stillAway last, ?_⟩
    intro pubkey handed
    rcases List.mem_append.mp handed with before | now
    · exact none? pubkey before
    · exact apply_not_handedOut stillAway pubkey now

/-- After the landing was seen, no entry with the id is ready with the value that
was in flight. -/
theorem onObservedLanding_notReady {manager : NonceManager} (distinct : manager.ids.Nodup)
    {id : NonceId} {now since : Instant} {value : Hash}
    (inFlight : (manager.getById id).map NonceEntry.state = some (.inFlight value since)) :
    NotReady (manager.onObservedLanding id now) id value := by
  intro position after present own isReady
  obtain ⟨entry, found, flying⟩ := Option.map_eq_some_iff.mp inFlight
  obtain ⟨idx, first, there, ownId⟩ := getById_eq_some found
  obtain ⟨before, same, sameId, _, old | ⟨here, changed⟩⟩ :=
    @ready_of_setStateAt _ (manager.positionOfId id) _ _ _ _ present isReady
  · have alike := position_unique distinct same there (by rw [sameId, own, ownId])
    subst alike
    rw [there] at same
    cases same
    simp [old] at flying
  · rw [first] at here
    cases here
    rw [there] at same
    cases same
    simp [flying, NonceState.observedLanding] at changed

/-- **A spent value is never handed out again.** The accounts have distinct ids, a
landing was seen while the value was in flight, and no later operation puts the
value back at the nonce: it is not observed on the account or computed for a
landing again, the nonce is not restored while it carries the value, and the value
is not fetched for it while it is stale. -/
theorem spent_not_reissued (accounts : List NonceAccount) (distinct : DistinctIds accounts)
    (before later : List Operation) (id : NonceId) (now since : Instant) (value : Hash)
    (inFlight : ((managerAfter accounts before).getById id).map NonceEntry.state =
      some (.inFlight value since))
    (kept : EachAfter (fun past operation =>
      ¬ PutsBackAt (managerAfter accounts (before ++ .onObservedLanding id now :: past)) id value
        operation) later)
    (pubkey : Pubkey) :
    (id, pubkey, value) ∉ handedOut accounts (before ++ [.onObservedLanding id now]) later := by
  have ids : (managerAfter accounts before).ids.Nodup := by
    rw [managerAfter_ids]
    exact distinct
  have away :
      NotReady (managerAfter accounts (before ++ [.onObservedLanding id now])) id value := by
    rw [managerAfter_concat]
    exact onObservedLanding_notReady ids inFlight
  refine (applyAll_not_handedOut away later ?_).2 pubkey
  intro past operation rest split
  have regrouped : managerAfter accounts (before ++ .onObservedLanding id now :: past) =
      (applyAll (managerAfter accounts (before ++ [.onObservedLanding id now])) past).1 := by
    rw [List.append_cons, managerAfter, applyAll, runAll_append]
    rfl
  rw [← regrouped]
  exact kept past operation rest split

/-- A value that was in flight when a landing was seen is handed out again, although
no later operation observed it on an account or computed it. -/
def Reissued (accounts : List NonceAccount) (before : List Operation) (id : NonceId)
    (now : Instant) (later : List Operation) (value : Hash) : Prop :=
  (∃ since, ((managerAfter accounts before).getById id).map NonceEntry.state =
    some (.inFlight value since)) ∧
  (∀ operation ∈ later, ∀ nonceId pubkey, operation ≠ .onLandingWithBlockhash nonceId value ∧
    operation ≠ .onAccountUpdate pubkey value) ∧
  ∃ pubkey, (id, pubkey, value) ∈
    handedOut accounts (before ++ [.onObservedLanding id now]) later

/-- A nonce account. -/
def soleAccount : NonceAccount := (7, Samples.hash 1, Samples.hash 2)

/-- A value is handed out again after a lagging node reports it, after the nonce is
restored, and by a second nonce with the same id. -/
theorem spent_reissued :
    Reissued [soleAccount] [.takeReady 0] 7 10
        [.tickTimeouts 100 45 15, .onFallbackRefresh (Samples.hash 1) (Samples.hash 2),
          .takeReady 101] (Samples.hash 2) ∧
      Reissued [soleAccount] [.takeReady 0] 7 10 [.restoreUnchanged 7, .takeReady 11]
        (Samples.hash 2) ∧
      Reissued [soleAccount, (7, Samples.hash 3, Samples.hash 2)] [.takeReady 0] 7 10
        [.takeReady 11] (Samples.hash 2) := by
  refine ⟨⟨⟨0, by decide +kernel⟩, by simp, Samples.hash 1, by decide +kernel⟩,
    ⟨⟨0, by decide +kernel⟩, by simp, Samples.hash 1, by decide +kernel⟩,
    ⟨⟨0, by decide +kernel⟩, by simp, Samples.hash 3, by decide +kernel⟩⟩

/-- The nonce goes stale, another value is fetched, and that value is handed out. -/
theorem spent_not_reissued_newValue :
    (7, Samples.hash 1, Samples.hash 2) ∉ handedOut [soleAccount]
      ([.takeReady 0] ++ [.onObservedLanding 7 10])
      [.tickTimeouts 100 45 15, .onFallbackRefresh (Samples.hash 1) (Samples.hash 3),
        .takeReady 101] := by
  refine spent_not_reissued [soleAccount] (by decide +kernel) [.takeReady 0] _ 7 10 0
    (Samples.hash 2) (by decide +kernel) ?_ (Samples.hash 1)
  refine (@eachAfter_concat _ _ [_, _] _).mpr ⟨(@eachAfter_concat _ _ [_] _).mpr
    ⟨(@eachAfter_concat _ _ [] _).mpr ⟨eachAfter_nil _, ?_⟩, ?_⟩, ?_⟩
  · rintro ⟨entry, _, ⟨⟩⟩
  · rintro ⟨entry, _, back⟩
    exact absurd (fetched_of_putsBack back) (by decide +kernel)
  · rintro ⟨entry, _, ⟨⟩⟩

end SenderAnalysis.NonceManager

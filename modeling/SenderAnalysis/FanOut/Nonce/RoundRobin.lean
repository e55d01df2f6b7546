import SenderAnalysis.FanOut.Nonce.Transitions
import SenderAnalysis.FanOut.Samples
import SenderAnalysis.Foundations.CyclicScans

/-!
# Handing out nonces in turn

`takeReady` looks at the entries one after the other, from its cursor on and around
the end. It hands out nothing only when no entry is ready; otherwise the ready
entry that comes first after the cursor is put in flight and every other entry
stays. The cursor moves by one with every call, wherever the entry was found, so
calls in a row are described by the ids that are still ready: a call moves one of
them from the ready ids to what was handed out.
-/

set_option autoImplicit false

namespace SenderAnalysis.NonceManager

variable {manager : NonceManager} {now : Instant}

/-! ## One call -/

/-- How many entries ahead of the cursor an entry stands. -/
def aheadOfCursor (manager : NonceManager) (idx : Nat) : Nat :=
  stepsTo manager.entries.length (manager.rrCursor.toNat % manager.entries.length) idx

/-- The ready entry that comes first, from the cursor on and around the end. -/
def FirstReady (manager : NonceManager) (idx : Nat) (entry : NonceEntry) : Prop :=
  manager.entries[idx]? = some entry ∧ entry.state.isReady = true ∧
    ∀ other ready, manager.entries[other]? = some ready → ready.state.isReady = true →
      manager.aheadOfCursor idx ≤ manager.aheadOfCursor other

/-- No entry is ready. -/
def NoneReady (manager : NonceManager) : Prop :=
  ∀ entry ∈ manager.entries, entry.state.isReady = false

theorem readyAt_eq_none_iff {idx : Nat} :
    manager.readyAt idx = none ↔
      ∀ entry, manager.entries[idx]? = some entry → entry.state.isReady = false := by
  unfold readyAt
  cases present : manager.entries[idx]? with
  | none => simp
  | some entry => cases state : entry.state <;> simp [state, NonceState.isReady]

theorem nextReady_eq_none_iff (inhabited : manager.entries.length ≠ 0) :
    manager.nextReady = none ↔ manager.NoneReady := by
  have begins : manager.rrCursor.toNat % manager.entries.length < manager.entries.length :=
    Nat.mod_lt _ (by omega)
  rw [show manager.nextReady = cyclicScan _ _ manager.readyAt from rfl,
    cyclicScan_eq_none_iff begins]
  constructor
  · intro misses entry member
    obtain ⟨idx, inside, rfl⟩ := List.getElem_of_mem member
    exact readyAt_eq_none_iff.mp (misses idx inside) _ (List.getElem?_eq_getElem inside)
  · intro unready idx inside
    exact readyAt_eq_none_iff.mpr fun entry present => unready entry (List.mem_of_getElem? present)

theorem firstReady_of_nextReady {idx : Nat} {entry : NonceEntry} {blockhash : Hash}
    (inhabited : manager.entries.length ≠ 0)
    (found : manager.nextReady = some (idx, entry, blockhash)) :
    manager.FirstReady idx entry ∧ entry.state = .ready blockhash := by
  have begins : manager.rrCursor.toNat % manager.entries.length < manager.entries.length :=
    Nat.mod_lt _ (by omega)
  obtain ⟨position, inside, here, nearer⟩ := cyclicScan_eq_some begins found
  obtain ⟨rfl, present, state⟩ := readyAt_eq_some here
  refine ⟨⟨present, by rw [state]; rfl, fun other ready there isReady => ?_⟩, state⟩
  by_contra ahead
  obtain ⟨otherInside, _⟩ := List.getElem?_eq_some_iff.mp there
  have missed := readyAt_eq_none_iff.mp (nearer other otherInside (Nat.lt_of_not_le ahead))
  rw [missed ready there] at isReady
  simp at isReady

/-- **Nothing is handed out only when no entry is ready.** -/
theorem takeReady_eq_none_iff : (manager.takeReady now).2 = none ↔ manager.NoneReady := by
  unfold takeReady
  split
  · next empty => simp [NoneReady, List.length_eq_zero_iff.mp empty]
  · next inhabited =>
    rw [← nextReady_eq_none_iff inhabited]
    cases found : manager.nextReady <;> simp

/-- **The first ready entry is handed out and put in flight, and the others stay.** -/
theorem takeReady_takes {id : NonceId} {pubkey : Pubkey} {blockhash : Hash}
    (taken : (manager.takeReady now).2 = some (id, pubkey, blockhash)) :
    ∃ idx, manager.FirstReady idx ⟨id, pubkey, .ready blockhash⟩ ∧
      (manager.takeReady now).1.entries =
        manager.entries.set idx ⟨id, pubkey, .inFlight blockhash now⟩ := by
  unfold takeReady at taken ⊢
  split at taken
  · simp at taken
  · next inhabited =>
    rw [if_neg inhabited]
    split at taken
    · next idx entry value found =>
      obtain ⟨first, state⟩ := firstReady_of_nextReady inhabited found
      cases entry
      cases taken
      cases state
      refine ⟨idx, first, ?_⟩
      simp only [setState, List.modify_eq_set_getElem?, first.1]
      rfl
    · simp at taken

/-! ## Calls in a row -/

/-- The ids of the ready entries. -/
def readyIds (manager : NonceManager) : List NonceId :=
  (manager.entries.filter fun entry => entry.state.isReady).map NonceEntry.id

theorem length_readyIds (manager : NonceManager) :
    manager.readyIds.length = manager.readyCount := by
  simp [readyIds, readyCount, countInState, List.countP_eq_length_filter]

theorem readyIds_nodup (distinct : manager.ids.Nodup) : manager.readyIds.Nodup :=
  distinct.sublist (List.filter_sublist.map NonceEntry.id)

/-- An entry that stops being ready leaves the ready ones. -/
theorem filter_set_perm {α : Type} (keep : α → Bool) {list : List α} {idx : Nat} {old : α}
    (new : α) (present : list[idx]? = some old) (kept : keep old = true)
    (dropped : keep new = false) :
    (old :: (list.set idx new).filter keep).Perm (list.filter keep) := by
  obtain ⟨inside, rfl⟩ := List.getElem?_eq_some_iff.mp present
  have split : list = list.take idx ++ list[idx] :: list.drop (idx + 1) := by simp
  rw [List.set_eq_take_append_cons_drop, if_pos inside]
  conv_rhs => rw [split]
  simp only [List.filter_append, List.filter_cons, kept, dropped, if_true, Bool.false_eq_true,
    if_false]
  exact List.perm_middle.symm

/-- **A call moves an id from the ready ones to what is handed out.** -/
theorem takeReady_readyIds (manager : NonceManager) (now : Instant) :
    ((manager.takeReady now).2.toList.map Prod.fst ++ (manager.takeReady now).1.readyIds).Perm
      manager.readyIds := by
  cases taken : (manager.takeReady now).2 with
  | none => simp [readyIds, takeReady_eq_none taken]
  | some out =>
    obtain ⟨idx, first, changed⟩ := takeReady_takes taken
    have moved := filter_set_perm (fun entry => entry.state.isReady)
      (⟨out.1, out.2.1, .inFlight out.2.2 now⟩ : NonceEntry) first.1 rfl rfl
    rw [readyIds, changed]
    exact moved.map NonceEntry.id

theorem readyCount_of_takes {out : NonceId × Pubkey × Hash}
    (taken : (manager.takeReady now).2 = some out) :
    (manager.takeReady now).1.readyCount + 1 = manager.readyCount := by
  have counted := (takeReady_readyIds manager now).length_eq
  rw [taken] at counted
  simp only [Option.toList_some, List.map_cons, List.map_nil, List.singleton_append,
    List.length_cons, length_readyIds] at counted
  exact counted

theorem noneReady_iff_readyIds : manager.NoneReady ↔ manager.readyIds = [] := by
  simp [NoneReady, readyIds]

/-- Calls one after the other, with the answer of each. -/
def takeReadyAll (manager : NonceManager) (nows : List Instant) :
    NonceManager × List (Option (NonceId × Pubkey × Hash)) :=
  runAll (fun current now => ((current.takeReady now).1, [(current.takeReady now).2])) manager nows

theorem takeReadyAll_cons (nows : List Instant) :
    manager.takeReadyAll (now :: nows) =
      (((manager.takeReady now).1.takeReadyAll nows).1,
        (manager.takeReady now).2 :: ((manager.takeReady now).1.takeReadyAll nows).2) := rfl

theorem length_takeReadyAll (manager : NonceManager) (nows : List Instant) :
    (manager.takeReadyAll nows).2.length = nows.length := by
  induction nows generalizing manager with
  | nil => rfl
  | cons now nows ih => rw [takeReadyAll_cons, List.length_cons, ih, List.length_cons]

/-- **While calls are at most as many as ready entries, each hands out an id, and
these and the ids still ready are the ids that were ready.** -/
theorem takeReadyAll_readyIds (manager : NonceManager) (nows : List Instant)
    (enough : nows.length ≤ manager.readyCount) :
    ∃ handed : List (NonceId × Pubkey × Hash),
      (manager.takeReadyAll nows).2 = handed.map some ∧
      (handed.map Prod.fst ++ (manager.takeReadyAll nows).1.readyIds).Perm manager.readyIds := by
  induction nows generalizing manager with
  | nil => exact ⟨[], rfl, .refl _⟩
  | cons now nows ih =>
    cases taken : (manager.takeReady now).2 with
    | none =>
      have empty := noneReady_iff_readyIds.mp (takeReady_eq_none_iff.mp taken)
      simp [← length_readyIds, empty] at enough
    | some out =>
      have one := readyCount_of_takes taken
      have moved := takeReady_readyIds manager now
      rw [List.length_cons] at enough
      obtain ⟨handed, answers, rest⟩ := ih (manager.takeReady now).1 (by omega)
      rw [takeReadyAll_cons, taken]
      rw [taken] at moved
      exact ⟨out :: handed, by simp [answers], (rest.cons out.1).trans moved⟩

/-- **Handing out is a complete round-robin.** A call answers none only when no
entry is ready. Otherwise it hands out the ready entry that comes first from the
cursor on, puts that entry in flight with its value, leaves the others as they were
and lowers the number of ready entries by one. When all entries are ready, as many
calls as there are entries hand out distinct ids, and the next one answers none. -/
theorem takeReady_roundRobin (manager : NonceManager) (distinct : manager.ids.Nodup) :
    (∀ now, (manager.takeReady now).2 = none ↔ manager.NoneReady) ∧
    (∀ now id pubkey blockhash, (manager.takeReady now).2 = some (id, pubkey, blockhash) →
      (∃ idx, manager.FirstReady idx ⟨id, pubkey, .ready blockhash⟩ ∧
        (manager.takeReady now).1.entries =
          manager.entries.set idx ⟨id, pubkey, .inFlight blockhash now⟩) ∧
      (manager.takeReady now).1.readyCount + 1 = manager.readyCount) ∧
    ((∀ entry ∈ manager.entries, entry.state.isReady = true) →
      ∀ nows : List Instant, nows.length = manager.entries.length →
        ∃ handed : List (NonceId × Pubkey × Hash),
          (manager.takeReadyAll nows).2 = handed.map some ∧
          (handed.map Prod.fst).Nodup ∧
          ∀ now, ((manager.takeReadyAll nows).1.takeReady now).2 = none) := by
  refine ⟨fun now => takeReady_eq_none_iff, fun now id pubkey blockhash taken => ?_, ?_⟩
  · exact ⟨takeReady_takes taken, readyCount_of_takes taken⟩
  · intro allReady nows asMany
    have all : manager.readyCount = manager.entries.length :=
      List.countP_eq_length.mpr allReady
    obtain ⟨handed, answers, moved⟩ := takeReadyAll_readyIds manager nows (by omega)
    have separate := moved.nodup_iff.mpr (readyIds_nodup distinct)
    refine ⟨handed, answers, (List.nodup_append.mp separate).1, fun now => ?_⟩
    have counted : handed.length = nows.length := by
      have answered := congrArg List.length answers
      rwa [List.length_map, length_takeReadyAll, eq_comm] at answered
    have sizes := moved.length_eq
    rw [List.length_append, List.length_map, length_readyIds manager] at sizes
    refine takeReady_eq_none_iff.mpr (noneReady_iff_readyIds.mpr ?_)
    exact List.eq_nil_of_length_eq_zero (by omega)

/-- Three accounts. -/
def threeAccounts : List NonceAccount :=
  [(4, Samples.hash 1, Samples.hash 2), (0, Samples.hash 3, Samples.hash 4),
    (9, Samples.hash 5, Samples.hash 6)]

/-- Three calls on three ready nonces hand out three ids, and the fourth none. -/
theorem takeReady_roundRobin_three :
    ∃ handed : List (NonceId × Pubkey × Hash),
      ((new threeAccounts).takeReadyAll [10, 20, 30]).2 = handed.map some ∧
        (handed.map Prod.fst).Nodup ∧
        ∀ now, (((new threeAccounts).takeReadyAll [10, 20, 30]).1.takeReady now).2 = none :=
  (takeReady_roundRobin (new threeAccounts) (by decide)).2.2 (by decide) [10, 20, 30] rfl

end SenderAnalysis.NonceManager

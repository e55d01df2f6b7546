import Mathlib.Algebra.Order.BigOperators.Group.List
import Mathlib.Algebra.Order.Ring.Nat
import Mathlib.Algebra.Group.Action.Defs
import SenderAnalysis.FanOut.Merger.Counters

/-!
# The balances of the merger's counters

The counters are what the ledger of the arrivals says, so their balances are facts
about a list in which every arrival has one source and one outcome (`tally_balance`).

An entry that was confirmed is confirmed again only after its slot was evicted
(`confirmations_le_one`): the table remembers the confirmation as long as the slot is
listed.
-/

set_option autoImplicit false

namespace SenderAnalysis.Merger

/-! ## Balances of the ledger -/

/-- Every arrival has one source, and one outcome. -/
theorem tally_balance (entries : List (Delivery × Outcome)) :
    tally entries (fun source _ => source = .shredStream) +
          tally entries (fun source _ => source = .yellowstone) = entries.length ∧
      tally entries (fun source result => decide (source = .shredStream) && result.isFirst) +
            tally entries (fun source result => decide (source = .yellowstone) && result.isFirst) +
          (samples entries).length + tally entries (fun _ result => result = .duplicate) =
        entries.length ∧
      tally entries (fun source result => decide (source = .shredStream) && result.isFirst) +
          tally entries (fun source result => decide (source = .yellowstone) && result.isFirst) =
        tally entries (fun _ result => result = .first true) +
          tally entries (fun _ result => result = .first false) := by
  induction entries using List.reverseRecOn with
  | nil => exact ⟨rfl, rfl, rfl⟩
  | append_singleton past entry ih =>
    obtain ⟨received, outcomes, firsts⟩ := ih
    obtain ⟨⟨observation, source⟩, result⟩ := entry
    simp only [tally_concat, samples_concat, List.length_append, List.length_singleton]
    refine ⟨?_, ?_, ?_⟩
    · cases source <;> simp <;> omega
    · rcases result with _ | _ | _ <;> cases source <;> simp <;> omega
    · rcases result with (_ | _) | _ | _ <;> cases source <;> simp <;> omega

theorem length_ledgerFrom (merger : State) (arrivals : List Arrival) :
    (ledgerFrom merger arrivals).length = arrivals.length := by
  induction arrivals generalizing merger with
  | nil => rfl
  | cons arrival rest ih =>
    have later := ih (ledgerStep merger arrival).1
    simp only [ledgerFrom, runAll_cons, List.length_append] at later ⊢
    rw [later, List.length_cons]
    exact Nat.add_comm _ _

/-! ## Confirmations between evictions -/

/-- The arrival evicts a slot of which entries were listed. -/
def Evicts (merger : State) (delivery : Delivery) (slot : Nat) : Prop :=
  listed (deduplicate merger delivery.1 delivery.2).1 slot ≠ [] ∧
    listed (step merger delivery).1 slot = []

/-- No arrival of a sequence evicts the slot. -/
def Keeps (slot : Nat) : State → List Arrival → Prop
  | _, [] => True
  | merger, arrival :: rest =>
      ¬ Evicts merger arrival.1 slot ∧ Keeps slot (step merger arrival.1).1 rest

/-- How often a key is confirmed. -/
def confirmations (key : Nat × Hash) (entries : List (Delivery × Outcome)) : Nat :=
  entries.countP fun entry => decide (entry.1.key = key) && entry.2.sample?.isSome

section Confirmations

variable {merger : State} {key : Nat × Hash}

theorem confirmations_cons (arrival : Arrival) (rest : List Arrival) :
    confirmations key (ledgerFrom merger (arrival :: rest)) =
      (if arrival.1.key = key ∧
          (outcome (merger.state.get arrival.1.key) arrival).sample?.isSome then 1 else 0) +
        confirmations key (ledgerFrom (step merger arrival.1).1 rest) := by
  have head : ledgerFrom merger (arrival :: rest) =
      (arrival.1, outcome (merger.state.get arrival.1.key) arrival) ::
        ledgerFrom (step merger arrival.1).1 rest := rfl
  rw [head, confirmations, List.countP_cons, Nat.add_comm]
  simp [confirmations]

/-- An entry whose slot is not evicted stays in the table. -/
theorem step_get_of_not_evicts (indexed : Indexed merger) {delivery : Delivery}
    (keeps : ¬ Evicts merger delivery key.1)
    (present : ((deduplicate merger delivery.1 delivery.2).1.state.get key).isSome) :
    (step merger delivery).1.state.get key =
      (deduplicate merger delivery.1 delivery.2).1.state.get key := by
  have inside : ¬ Expires merger delivery.1.slot key.1 := by
    intro expired
    refine keeps ⟨?_, ?_⟩
    · intro unlisted
      have member := ((indexed.deduplicate delivery).same key).mpr present
      simp [unlisted] at member
    · rw [List.eq_nil_iff_forall_not_mem]
      intro hash member
      have known := ((indexed.step delivery).same (key.1, hash)).mp member
      rw [step_get indexed, if_pos expired] at known
      simp at known
  rw [step_get indexed, if_neg inside, deduplicate_get]

/-- A confirmed entry is not confirmed again before its slot is evicted. -/
theorem confirmations_of_confirmed (indexed : Indexed merger) (arrivals : List Arrival)
    (keeps : Keeps key.1 merger arrivals) (confirmed : merger.state.get key = some .confirmed) :
    confirmations key (ledgerFrom merger arrivals) = 0 := by
  induction arrivals generalizing merger with
  | nil => rfl
  | cons arrival rest ih =>
    obtain ⟨here, later⟩ := keeps
    have still : (deduplicate merger arrival.1.1 arrival.1.2).1.state.get key =
        some .confirmed := by
      rw [deduplicate_get, confirmed]
      split <;> rfl
    have next := step_get_of_not_evicts indexed here (by simp [still])
    rw [confirmations_cons, ih (indexed.step arrival.1) later (next.trans still)]
    by_cases own : arrival.1.key = key
    · simp [own, confirmed, outcome]
    · simp [own]

/-- **Between two evictions of its slot, an entry is confirmed at most once.** -/
theorem confirmations_le_one (indexed : Indexed merger) (arrivals : List Arrival)
    (keeps : Keeps key.1 merger arrivals) :
    confirmations key (ledgerFrom merger arrivals) ≤ 1 := by
  induction arrivals generalizing merger with
  | nil => exact Nat.zero_le _
  | cons arrival rest ih =>
    obtain ⟨here, later⟩ := keeps
    rw [confirmations_cons]
    by_cases confirms : arrival.1.key = key ∧
        (outcome (merger.state.get arrival.1.key) arrival).sample?.isSome
    · obtain ⟨own, recorded⟩ := confirms
      have nowConfirmed : (deduplicate merger arrival.1.1 arrival.1.2).1.state.get key =
          some .confirmed := by
        subst own
        rw [deduplicate_get, if_pos rfl]
        cases known : merger.state.get arrival.1.key with
        | none => simp [known, outcome] at recorded
        | some remembered =>
          cases remembered with
          | confirmed => rfl
          | primary firstSource firstSeenAt =>
            by_cases other : firstSource ≠ arrival.1.2
            · simp [sighted, other]
            · simp [known, outcome, other] at recorded
      have next := step_get_of_not_evicts indexed here (by simp [nowConfirmed])
      have none := confirmations_of_confirmed (indexed.step arrival.1) rest later
        (next.trans nowConfirmed)
      rw [if_pos ⟨own, recorded⟩, none]
    · rw [if_neg confirms, Nat.zero_add]
      exact ih (indexed.step arrival.1) later

end Confirmations

/-! ## Conservation -/

/-- The balances of the statistics after a sequence of arrivals. Sums of counters are
sums of unsigned numbers of 64 bits; below `2 ^ 64` arrivals they are exact. -/
structure Conserves (arrivals : List Arrival) : Prop where
  received :
    ((run arrivals).counters.ssReceived + (run arrivals).counters.ysReceived) % 2 ^ 64 =
      ((run arrivals).counters.ssFirst + (run arrivals).counters.ysFirst +
        (run arrivals).counters.confirmedByBoth + (run arrivals).counters.duplicates) % 2 ^ 64
  received_exact : arrivals.length < 2 ^ 64 →
    (run arrivals).counters.ssReceived + (run arrivals).counters.ysReceived =
      (run arrivals).counters.ssFirst + (run arrivals).counters.ysFirst +
        (run arrivals).counters.confirmedByBoth + (run arrivals).counters.duplicates
  offered :
    ((run arrivals).counters.ssFirst + (run arrivals).counters.ysFirst) % 2 ^ 64 =
      ((run arrivals).put.length + (run arrivals).counters.outputFull) % 2 ^ 64
  offered_exact : arrivals.length < 2 ^ 64 →
    (run arrivals).counters.ssFirst + (run arrivals).counters.ysFirst =
      (run arrivals).put.length + (run arrivals).counters.outputFull
  confirmedOnce : ∀ past segment key, arrivals = past ++ segment →
    Keeps key.1 (run past).merger segment →
      confirmations key (ledgerFrom (run past).merger segment) ≤ 1
  confirmed : (run arrivals).counters.confirmedByBoth =
    (samples (ledger arrivals)).length % 2 ^ 64
  least : ∀ sample ∈ samples (ledger arrivals),
    (run arrivals).counters.snapshot.confirmLatencyMinNs ≤ sample
  greatest : ∀ sample ∈ samples (ledger arrivals),
    sample ≤ (run arrivals).counters.snapshot.confirmLatencyMaxNs
  sum : (samples (ledger arrivals)).sum < 2 ^ 64 →
    (run arrivals).counters.snapshot.confirmLatencyMinNs * (samples (ledger arrivals)).length ≤
        (run arrivals).counters.snapshot.confirmLatencySumNs ∧
      (run arrivals).counters.snapshot.confirmLatencySumNs ≤
        (run arrivals).counters.snapshot.confirmLatencyMaxNs *
          (samples (ledger arrivals)).length

theorem machine_indexed (arrivals : List Arrival) : Indexed (run arrivals).merger := by
  rw [run_merger]
  exact runAll_invariant (fun _ arrival indexed => indexed.step arrival.1) indexed_initial _

/-- **Every arrival is counted once, and every first sighting is put on the output or
counted as refused.** -/
theorem merger_conserves (arrivals : List Arrival) : Conserves arrivals := by
  obtain ⟨tallied, timed⟩ := run_accounts arrivals
  obtain ⟨received, outcomes, firsts⟩ := tally_balance (ledger arrivals)
  have length : (ledger arrivals).length = arrivals.length := length_ledgerFrom _ _
  have snapshotLe : (run arrivals).counters.snapshot.confirmLatencyMinNs ≤
      (run arrivals).counters.confirmLatencyMinNs := by
    simp only [MergerCounters.snapshot]
    split <;> omega
  have least : ∀ sample ∈ samples (ledger arrivals),
      (run arrivals).counters.snapshot.confirmLatencyMinNs ≤ sample :=
    fun sample member => snapshotLe.trans (timed.least sample member)
  obtain ⟨ssReceived, ysReceived, ssFirst, ysFirst, confirmed, duplicates, outputFull, put⟩ :=
    tallied
  have below : arrivals.length < 2 ^ 64 → ∀ test, tally (ledger arrivals) test < 2 ^ 64 :=
    fun few test => (length ▸ List.countP_le_length : _ ≤ arrivals.length).trans_lt few
  constructor
  · omega
  · intro few
    have fewSamples : (samples (ledger arrivals)).length < 2 ^ 64 :=
      (length ▸ List.length_filterMap_le _ _ : _ ≤ arrivals.length).trans_lt few
    rw [ssReceived, ysReceived, ssFirst, ysFirst, confirmed, duplicates,
      Nat.mod_eq_of_lt fewSamples]
    simp only [Nat.mod_eq_of_lt (below few _)]
    exact received.trans outcomes.symm
  · omega
  · intro few
    rw [ssFirst, ysFirst, put, outputFull]
    simp only [Nat.mod_eq_of_lt (below few _)]
    exact firsts
  · intro past segment key _ keeps
    exact confirmations_le_one (machine_indexed past) segment keeps
  · exact confirmed
  · exact least
  · exact timed.greatest
  · intro fits
    have total : (run arrivals).counters.confirmLatencySumNs = (samples (ledger arrivals)).sum := by
      rw [timed.sum, Nat.mod_eq_of_lt fits]
    have low := List.card_nsmul_le_sum _ _ least
    have high := List.sum_le_card_nsmul _ _ timed.greatest
    rw [smul_eq_mul, Nat.mul_comm] at low high
    exact ⟨low.trans_eq total.symm, total.trans_le high⟩

end SenderAnalysis.Merger

import SenderAnalysis.Foundations.Traces
import SenderAnalysis.TickTriggerBench.Preparer.Model

/-!
# Whether the pooled bodies differ

Two transactions of one cycle differ in the amount, until the amount saturates. Across cycles
the amounts start over, so two transactions are told apart by their blockhashes. When the
node answers two cycles with one blockhash, the second cycle can sign what the pool still
holds from the first.

The pooled transactions stay pairwise different in a run exactly when no signing meets its
own amount and blockhash in the pool (`bodies_unique_iff`). That is so when the blockhashes
are distinct and the amounts do not saturate (`unique_of_distinct_blockhashes`).
-/

set_option autoImplicit false

namespace SenderAnalysis.TickTriggerBench.Preparer

variable {cfg : Config} {preparer : State}

/-! ## Bodies -/

/-- The body of a transaction tells its amount and its blockhash. -/
theorem body_inj {amount amount' : Nat} {blockhash blockhash' : Hash}
    (same : body cfg amount blockhash = body cfg amount' blockhash') :
    amount = amount' ∧ blockhash = blockhash' := by
  have instructions := congrArg Transaction.instructions same
  have last := List.append_cancel_left instructions
  refine ⟨?_, congrArg Transaction.blockhash same⟩
  injection last with transfer
  injection transfer

/-- No two transactions of a pool have one amount and one blockhash, so none have the same
bytes and the same signature. -/
structure Unique (cfg : Config) (pool : HashTable PoolKey Signed) : Prop where
  pairs : ∀ key key' tx tx', pool.get key = some tx → pool.get key' = some tx' →
    tx.amount = tx'.amount → tx.blockhash = tx'.blockhash → key = key'
  bytes : ∀ wallet : Wallet, Function.Injective wallet.serialize → ∀ key key' tx tx',
    pool.get key = some tx → pool.get key' = some tx' →
    (preSigned cfg wallet tx).serialized = (preSigned cfg wallet tx').serialized →
    (preSigned cfg wallet tx).signature = (preSigned cfg wallet tx').signature → key = key'

theorem Unique.of_pairs {pool : HashTable PoolKey Signed}
    (pairs : ∀ key key' tx tx', pool.get key = some tx → pool.get key' = some tx' →
      tx.amount = tx'.amount → tx.blockhash = tx'.blockhash → key = key') :
    Unique cfg pool := by
  refine ⟨pairs, ?_⟩
  intro wallet injective key key' tx tx' found found' sameBytes _
  obtain ⟨sameAmount, sameHash⟩ := body_inj (injective sameBytes)
  exact pairs key key' tx tx' found found' sameAmount sameHash

/-- Taking transactions out keeps the others different. -/
theorem Unique.shrink {pool pool' : HashTable PoolKey Signed} (unique : Unique cfg pool)
    (shrinks : ∀ key tx, pool'.get key = some tx → pool.get key = some tx) :
    Unique cfg pool' := by
  apply Unique.of_pairs
  intro key key' tx tx' found found'
  exact unique.pairs key key' tx tx' (shrinks key tx found) (shrinks key' tx' found')

/-! ## What a step does to the pool -/

/-- A step signs a transaction for an entry. -/
structure Signs (cfg : Config) (preparer : State) (act : Act) (blockhash : Hash)
    (entry : ScheduleEntry) (newSigned : Nat) (now : Instant) : Prop where
  act : act = .advance now
  phase : ∃ nowSlot rest,
    preparer.phase = .signing blockhash nowSlot (entry :: rest) newSigned ∧
      Due cfg preparer nowSlot entry

/-- The transaction that is signed for an entry. -/
def signed (cfg : Config) (blockhash : Hash) (newSigned : Nat) (now : Instant) : Signed :=
  ⟨amountAfter cfg newSigned, blockhash, now⟩

variable {act : Act} {blockhash : Hash} {entry : ScheduleEntry} {newSigned : Nat} {now : Instant}

theorem Signs.unsigned (signs : Signs cfg preparer act blockhash entry newSigned now) :
    preparer.alreadySigned.get (entry.slot, entry.tick) = none := by
  obtain ⟨_, _, _, due⟩ := signs.phase
  exact due.2.2

theorem Signs.step_eq (signs : Signs cfg preparer act blockhash entry newSigned now) :
    (step cfg preparer act).1.pool =
        preparer.pool.insert (entry.slot, entry.tick) (signed cfg blockhash newSigned now) ∧
      (step cfg preparer act).1.alreadySigned =
        preparer.alreadySigned.insert (entry.slot, entry.tick) now := by
  obtain ⟨rfl, nowSlot, rest, phase, due⟩ := signs
  simp only [step, advance, phase, if_pos due]
  exact ⟨rfl, rfl⟩

/-- A step that signs nothing takes transactions out of the pool, and the keys of the
transactions that stay are signed as before. -/
structure Shrinks (before after : State) : Prop where
  pool : ∀ key tx, after.pool.get key = some tx → before.pool.get key = some tx
  alreadySigned : ∀ key, (after.pool.get key).isSome → before.alreadySigned.get key ≠ none →
    after.alreadySigned.get key ≠ none

theorem Shrinks.of_eq {after : State} (pool : after.pool = preparer.pool)
    (alreadySigned : after.alreadySigned = preparer.alreadySigned) :
    Shrinks preparer after := by
  refine ⟨?_, ?_⟩
  · intro key tx found
    rwa [pool] at found
  · intro key _ covered
    rwa [alreadySigned]

/-- Removing a key from the pool alone. -/
theorem Shrinks.take (preparer : State) (key : PoolKey) :
    Shrinks preparer { preparer with pool := preparer.pool.remove key } := by
  refine ⟨?_, fun _ _ covered => covered⟩
  intro other tx found
  exact HashTable.get_of_get_remove found

/-- Removing a key from the pool and from what is signed. -/
theorem Shrinks.expire (preparer : State) (key : PoolKey) (phase : Phase) :
    Shrinks preparer
      { preparer with
        alreadySigned := preparer.alreadySigned.remove key
        pool := preparer.pool.remove key
        phase := phase } := by
  refine ⟨?_, ?_⟩ <;> dsimp only <;> intro other
  · intro tx found
    exact HashTable.get_of_get_remove found
  · rw [HashTable.get_remove, HashTable.get_remove]
    split
    · intro kept
      cases kept
    · exact fun _ covered => covered

/-- Pruning the pool. -/
theorem Shrinks.prune (preparer : State) (test : PoolKey → Signed → Bool) (phase : Phase) :
    Shrinks preparer { preparer with pool := preparer.pool.retain test, phase := phase } := by
  refine ⟨?_, fun _ _ covered => covered⟩
  intro key tx found
  have found : (preparer.pool.retain test).get key = some tx := found
  rw [HashTable.get_retain] at found
  exact (Option.filter_eq_some_iff.mp found).1

/-- A step of the preparer signs a transaction, or signs nothing. -/
theorem advance_cases (cfg : Config) (preparer : State) (now : Instant) :
    Shrinks preparer (advance cfg preparer now) ∨
      ∃ blockhash entry newSigned,
        Signs cfg preparer (.advance now) blockhash entry newSigned now := by
  cases phase : preparer.phase with
  | fetching =>
    refine .inl (Shrinks.of_eq ?_ ?_) <;> simp only [advance, phase]
  | expiring blockhash keys =>
    left
    cases keys with
    | nil => refine Shrinks.of_eq ?_ ?_ <;> simp only [advance, phase]
    | cons expired rest =>
      simp only [advance, phase]
      exact Shrinks.expire preparer expired _
  | looking blockhash =>
    refine .inl (Shrinks.of_eq ?_ ?_) <;> simp only [advance, phase] <;> split <;> rfl
  | signing blockhash nowSlot entries newSigned =>
    cases entries with
    | nil =>
      left
      simp only [advance, phase]
      exact Shrinks.prune preparer _ _
    | cons entry rest =>
      by_cases due : Due cfg preparer nowSlot entry
      · exact .inr ⟨blockhash, entry, newSigned, rfl, nowSlot, rest, phase, due⟩
      · refine .inl (Shrinks.of_eq ?_ ?_) <;> simp only [advance, phase, if_neg due]

theorem step_cases (cfg : Config) (preparer : State) (act : Act) :
    Shrinks preparer (step cfg preparer act).1 ∨
      ∃ blockhash entry newSigned now,
        Signs cfg preparer act blockhash entry newSigned now := by
  cases act with
  | fetch latest now =>
    refine .inl (Shrinks.of_eq ?_ ?_) <;>
      · unfold step fetch
        dsimp only
        split <;> rfl
  | observe slot => exact .inl (Shrinks.of_eq rfl rfl)
  | take slot tick => exact .inl (Shrinks.take preparer (slot, tick))
  | advance now =>
    obtain shrinks | ⟨blockhash, entry, newSigned, signs⟩ := advance_cases cfg preparer now
    · exact .inl shrinks
    · exact .inr ⟨blockhash, entry, newSigned, now, signs⟩

/-! ## What is pooled is signed -/

/-- The key of every pooled transaction is signed. -/
def Covered (preparer : State) : Prop :=
  ∀ key, (preparer.pool.get key).isSome → preparer.alreadySigned.get key ≠ none

theorem step_covered (covered : Covered preparer) (act : Act) :
    Covered (step cfg preparer act).1 := by
  intro key pooled
  obtain shrinks | ⟨blockhash, entry, newSigned, now, signs⟩ := step_cases cfg preparer act
  · obtain ⟨tx, found⟩ := Option.isSome_iff_exists.mp pooled
    have before : (preparer.pool.get key).isSome := by
      rw [shrinks.pool key tx found]
      rfl
    exact shrinks.alreadySigned key pooled (covered key before)
  · rw [signs.step_eq.1, HashTable.get_insert] at pooled
    rw [signs.step_eq.2, HashTable.get_insert]
    by_cases own : key = (entry.slot, entry.tick)
    · rw [if_pos own]
      exact Option.some_ne_none now
    · rw [if_neg own] at pooled ⊢
      exact covered key pooled

theorem run_concat (cfg : Config) (past : List Act) (act : Act) :
    run cfg (past ++ [act]) = (step cfg (run cfg past) act).1 := by
  unfold run
  rw [runAll_concat]

theorem run_covered (cfg : Config) (acts : List Act) : Covered (run cfg acts) := by
  induction acts using List.reverseRecOn with
  | nil =>
    intro key pooled
    cases pooled
  | append_singleton past act covered =>
    rw [run_concat]
    exact step_covered covered act

/-- A transaction is signed under a key that the pool does not have. -/
theorem Signs.absent (signs : Signs cfg preparer act blockhash entry newSigned now)
    (covered : Covered preparer) : preparer.pool.get (entry.slot, entry.tick) = none := by
  cases found : preparer.pool.get (entry.slot, entry.tick) with
  | none => rfl
  | some tx => exact absurd signs.unsigned (covered _ (by rw [found]; rfl))

/-! ## When the bodies stay different -/

/-- A step signs no amount and blockhash that a pooled transaction has. -/
def SignsFresh (cfg : Config) (preparer : State) (act : Act) : Prop :=
  ∀ blockhash entry newSigned now, Signs cfg preparer act blockhash entry newSigned now →
    ∀ key tx, preparer.pool.get key = some tx → tx.blockhash = blockhash →
      tx.amount ≠ amountAfter cfg newSigned

theorem step_unique (unique : Unique cfg preparer.pool) (fresh : SignsFresh cfg preparer act) :
    Unique cfg (step cfg preparer act).1.pool := by
  obtain shrinks | ⟨blockhash, entry, newSigned, now, signs⟩ := step_cases cfg preparer act
  · exact unique.shrink shrinks.pool
  have fresh := fresh blockhash entry newSigned now signs
  apply Unique.of_pairs
  rw [signs.step_eq.1]
  intro key key' tx tx' found found' sameAmount sameHash
  rw [HashTable.get_insert] at found found'
  split at found <;> split at found'
  · next own own' => exact own.trans own'.symm
  · cases found
    exact absurd sameAmount.symm (fresh key' tx' found' sameHash.symm)
  · cases found'
    exact absurd sameAmount (fresh key tx found sameHash)
  · exact unique.pairs key key' tx tx' found found' sameAmount sameHash

/-- A signing that meets its amount and blockhash in the pool leaves both there. -/
theorem step_fresh (covered : Covered preparer)
    (unique : Unique cfg (step cfg preparer act).1.pool) : SignsFresh cfg preparer act := by
  intro blockhash entry newSigned now signs key tx found sameHash sameAmount
  have pairs := unique.pairs
  rw [signs.step_eq.1] at pairs
  have apart : key ≠ (entry.slot, entry.tick) := by
    rintro rfl
    rw [signs.absent covered] at found
    cases found
  have kept := (HashTable.get_insert_of_ne preparer.pool
    (signed cfg blockhash newSigned now) apart).trans found
  exact apart (pairs key (entry.slot, entry.tick) tx _ kept (HashTable.get_insert_self ..)
    sameAmount sameHash)

/-- The pooled transactions are pairwise different throughout a run exactly when no step of
the run signs an amount and a blockhash that a pooled transaction has. -/
theorem bodies_unique_iff (cfg : Config) (acts : List Act) :
    (∀ past rest, acts = past ++ rest → Unique cfg (run cfg past).pool) ↔
      EachAfter (fun past act => SignsFresh cfg (run cfg past) act) acts := by
  constructor
  · intro always past act rest split
    have after := always (past ++ [act]) rest (by rw [split, List.append_assoc]; rfl)
    rw [run_concat] at after
    exact step_fresh (run_covered cfg past) after
  · intro fresh past rest split
    subst split
    replace fresh := fresh.of_append
    induction past using List.reverseRecOn with
    | nil =>
      apply Unique.of_pairs
      intro key key' tx tx' found
      cases found
    | append_singleton past act unique =>
      rw [eachAfter_concat] at fresh
      rw [run_concat]
      exact step_unique (unique fresh.1) fresh.2

/-- A schedule with one tick in each of two slots, signed one slot ahead. -/
def sampleConfig : Config where
  schedule := [⟨10, 1⟩, ⟨11, 1⟩]
  payer := Vector.replicate 32 1
  tipAccount := Vector.replicate 32 2
  lookAheadSlots := 1
  amountLamports := 1
  priorityFeeMicrolamports := 5000
  heliusTipLamports := 5000

def sampleHash : Hash := Vector.replicate 32 7

/-- Two cycles, 30 s apart, that the node answers with one blockhash. The slot moves on
between them. -/
def repeatedBlockhash : List Act :=
  [.observe 10, .fetch (some sampleHash) 0, .advance 0, .advance 0, .advance 0, .advance 0,
    .advance 0, .observe 11, .fetch (some sampleHash) 30000000000, .advance 30000000000,
    .advance 30000000000, .advance 30000000000, .advance 30000000000]

/-- The second cycle starts the amounts over: its first transaction is the first of the cycle
before. -/
theorem bodies_unique_violated :
    ¬ Unique sampleConfig (run sampleConfig repeatedBlockhash).pool := by
  intro unique
  have same := unique.pairs (10, 1) (11, 1) ⟨1, sampleHash, 0⟩
    ⟨1, sampleHash, 30000000000⟩ rfl rfl rfl rfl
  exact absurd same (by decide)

/-! ## Distinct blockhashes -/

/-- The blockhash that the node answers with. -/
def Act.fetched? : Act → Option Hash
  | .fetch latest _ => latest
  | .advance _ | .observe _ | .take _ _ => none

/-- The blockhash of the cycle, with the number of transactions signed in it. -/
def Phase.begun : Phase → Option (Hash × Nat)
  | .fetching => none
  | .expiring blockhash _ | .looking blockhash => some (blockhash, 0)
  | .signing blockhash _ _ newSigned => some (blockhash, newSigned)

theorem Signs.begun (signs : Signs cfg preparer act blockhash entry newSigned now) :
    preparer.phase.begun = some (blockhash, newSigned) ∧
      (step cfg preparer act).1.phase.begun = some (blockhash, newSigned + 1) := by
  obtain ⟨rfl, nowSlot, rest, phase, due⟩ := signs
  simp only [step, advance, phase, if_pos due]
  exact ⟨rfl, rfl⟩

/-- A step that signs nothing goes on with the cycle, ends it, or begins one. -/
theorem step_begun
    (unsigned : ∀ hash entry count now, ¬ Signs cfg preparer act hash entry count now)
    (begun : (step cfg preparer act).1.phase.begun = some (blockhash, newSigned)) :
    preparer.phase.begun = some (blockhash, newSigned) ∨
      act.fetched? = some blockhash ∧ newSigned = 0 := by
  cases act with
  | observe slot => exact .inl begun
  | take slot tick => exact .inl begun
  | fetch latest now =>
    simp only [step, fetch] at begun
    split at begun
    · cases begun
      exact .inr ⟨rfl, rfl⟩
    · exact .inl begun
    · exact .inl begun
  | advance now =>
    left
    cases phase : preparer.phase with
    | fetching =>
      simp only [step, advance, phase, Phase.begun] at begun
      cases begun
    | expiring hash keys =>
      cases keys <;> simpa only [step, advance, phase, Phase.begun] using begun
    | looking hash =>
      simp only [step, advance, phase] at begun
      split at begun
      · cases begun
      · exact begun
    | signing hash nowSlot entries count =>
      cases entries with
      | nil =>
        simp only [step, advance, phase, Phase.begun] at begun
        cases begun
      | cons entry rest =>
        have skipped : ¬ Due cfg preparer nowSlot entry := by
          intro due
          exact unsigned hash entry count now ⟨rfl, nowSlot, rest, phase, due⟩
        simp only [step, advance, phase, if_neg skipped] at begun
        exact begun

/-- No more transactions are signed in a cycle than the schedule has entries. -/
def Room (cfg : Config) (preparer : State) : Prop :=
  ∀ blockhash nowSlot entries newSigned,
    preparer.phase = .signing blockhash nowSlot entries newSigned →
      newSigned + entries.length ≤ cfg.schedule.length

theorem step_room (room : Room cfg preparer) (act : Act) : Room cfg (step cfg preparer act).1 := by
  intro blockhash nowSlot entries newSigned phase
  cases act with
  | observe slot => exact room _ _ _ _ phase
  | take slot tick => exact room _ _ _ _ phase
  | fetch latest now =>
    simp only [step, fetch] at phase
    split at phase
    · cases phase
    · exact room _ _ _ _ phase
    · exact room _ _ _ _ phase
  | advance now =>
    simp only [step, advance] at phase
    split at phase
    · exact room _ _ _ _ phase
    · cases phase
    · cases phase
    · split at phase
      · cases phase
      · cases phase
        exact Nat.le_of_eq (Nat.zero_add _)
    · next entry rest count before =>
      have bound := room _ _ _ _ before
      rw [List.length_cons] at bound
      split at phase <;> cases phase <;> omega
    · cases phase

/-- The pooled transactions have fetched blockhashes. Those with the blockhash of the cycle
were signed in it. -/
structure CycleOf (cfg : Config) (hashes : List Hash) (preparer : State) : Prop where
  fetched : ∀ key tx, preparer.pool.get key = some tx → tx.blockhash ∈ hashes
  begun : ∀ blockhash newSigned, preparer.phase.begun = some (blockhash, newSigned) →
    blockhash ∈ hashes ∧
      ∀ key tx, preparer.pool.get key = some tx → tx.blockhash = blockhash →
        ∃ before, before < newSigned ∧ tx.amount = amountAfter cfg before
  room : Room cfg preparer

theorem amountAfter_injOn {before after : Nat} (less : before < after)
    (small : cfg.amountLamports + after < 2 ^ 64) :
    amountAfter cfg before ≠ amountAfter cfg after := by
  unfold amountAfter saturatingAdd
  omega

theorem step_cycle {hashes : List Hash} (cycle : CycleOf cfg hashes preparer)
    (distinct : ∀ blockhash, act.fetched? = some blockhash → blockhash ∉ hashes) :
    CycleOf cfg (hashes ++ act.fetched?.toList) (step cfg preparer act).1 := by
  refine ⟨?_, ?_, step_room cycle.room act⟩ <;>
    by_cases signing : ∃ hash entry count now, Signs cfg preparer act hash entry count now
  · obtain ⟨hash, entry, count, now, signs⟩ := signing
    intro key tx found
    rw [signs.step_eq.1, HashTable.get_insert] at found
    split at found
    · cases found
      exact List.mem_append_left _ (cycle.begun hash count signs.begun.1).1
    · exact List.mem_append_left _ (cycle.fetched key tx found)
  · have shrinks := (step_cases cfg preparer act).resolve_right signing
    intro key tx found
    exact List.mem_append_left _ (cycle.fetched key tx (shrinks.pool key tx found))
  · obtain ⟨hash, entry, count, now, signs⟩ := signing
    intro blockhash newSigned begun
    rw [signs.begun.2] at begun
    cases begun
    obtain ⟨member, signedBefore⟩ := cycle.begun hash count signs.begun.1
    refine ⟨List.mem_append_left _ member, ?_⟩
    intro key tx found sameHash
    rw [signs.step_eq.1, HashTable.get_insert] at found
    split at found
    · cases found
      exact ⟨count, Nat.lt_succ_self count, rfl⟩
    · obtain ⟨before, less, amount⟩ := signedBefore key tx found sameHash
      exact ⟨before, Nat.lt_succ_of_lt less, amount⟩
  · have shrinks := (step_cases cfg preparer act).resolve_right signing
    intro blockhash newSigned begun
    have unsigned : ∀ hash entry count now, ¬ Signs cfg preparer act hash entry count now :=
      fun hash entry count now signs => signing ⟨hash, entry, count, now, signs⟩
    obtain before | ⟨fetched, rfl⟩ := step_begun unsigned begun
    · obtain ⟨member, signedBefore⟩ := cycle.begun blockhash newSigned before
      refine ⟨List.mem_append_left _ member, ?_⟩
      intro key tx found
      exact signedBefore key tx (shrinks.pool key tx found)
    · refine ⟨List.mem_append_right _ (by rw [fetched]; exact List.mem_singleton_self _), ?_⟩
      intro key tx found sameHash
      have old := cycle.fetched key tx (shrinks.pool key tx found)
      rw [sameHash] at old
      exact absurd old (distinct blockhash fetched)

theorem CycleOf.signsFresh {hashes : List Hash} (cycle : CycleOf cfg hashes preparer)
    (small : cfg.amountLamports + cfg.schedule.length ≤ 2 ^ 64) :
    SignsFresh cfg preparer act := by
  intro blockhash entry newSigned now signs key tx found sameHash
  obtain ⟨before, less, amount⟩ :=
    (cycle.begun blockhash newSigned signs.begun.1).2 key tx found sameHash
  obtain ⟨nowSlot, rest, phase, _⟩ := signs.phase
  have bound := cycle.room _ _ _ _ phase
  rw [List.length_cons] at bound
  rw [amount]
  exact amountAfter_injOn less (by omega)

/-- The blockhashes that a run fetches. -/
def fetchedHashes (acts : List Act) : List Hash := acts.flatMap fun act => act.fetched?.toList

theorem run_cycle (cfg : Config) {acts : List Act} (distinct : (fetchedHashes acts).Nodup) :
    CycleOf cfg (fetchedHashes acts) (run cfg acts) := by
  induction acts using List.reverseRecOn with
  | nil =>
    refine ⟨?_, ?_, ?_⟩
    · intro key tx found
      cases found
    · intro blockhash newSigned begun
      cases begun
    · intro blockhash nowSlot entries newSigned phase
      cases phase
  | append_singleton past act cycle =>
    have split : fetchedHashes (past ++ [act]) = fetchedHashes past ++ act.fetched?.toList := by
      unfold fetchedHashes
      rw [List.flatMap_append, List.flatMap_singleton]
    rw [split] at distinct ⊢
    rw [run_concat]
    obtain ⟨before, _, apart⟩ := List.nodup_append.mp distinct
    apply step_cycle (cycle before)
    intro blockhash fetched member
    exact apart blockhash member blockhash (by rw [fetched]; exact List.mem_singleton_self _) rfl

/-- When the node never answers with a blockhash twice and the amounts do not saturate, the
pooled transactions are pairwise different throughout a run. -/
theorem unique_of_distinct_blockhashes (cfg : Config) {acts : List Act}
    (distinct : (fetchedHashes acts).Nodup)
    (small : cfg.amountLamports + cfg.schedule.length ≤ 2 ^ 64) (past rest : List Act)
    (split : acts = past ++ rest) : Unique cfg (run cfg past).pool := by
  refine (bodies_unique_iff cfg acts).mpr ?_ past rest split
  intro past act rest split
  have before : (fetchedHashes past).Nodup := by
    have sublist : (fetchedHashes past).Sublist (fetchedHashes acts) := by
      unfold fetchedHashes
      rw [split, List.flatMap_append]
      exact List.sublist_append_left _ _
    exact distinct.sublist sublist
  exact (run_cycle cfg before).signsFresh small

end SenderAnalysis.TickTriggerBench.Preparer

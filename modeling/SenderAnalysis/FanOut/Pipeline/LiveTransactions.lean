import SenderAnalysis.FanOut.Pipeline.TriggerLives

/-!
# Live triggers and their transactions

The list of live triggers says the truth about the transactions: every transaction
in the pool, and every one whose attempt is not final, is signed with the nonce
value of a live trigger. The invariant `Tied` says so, and what ties the list to
the preparer and the pool: the trigger that is being signed for is the one the
preparer works on, and at most one live trigger has its transactions in the pool
under a slot and a tick.
-/

set_option autoImplicit false

namespace SenderAnalysis.TriggerLives

/-- The live triggers agree with the preparer, the pool and the attempts. -/
structure Tied (state : State) : Prop where
  signing : ∀ trigger ∈ state.live, trigger.stage = .signing →
    opened state.preparer = some trigger
  signed : ∀ signing, state.preparer.signing = some signing →
    ∃ trigger ∈ state.live, opened state.preparer = some trigger
  single : ∀ first ∈ state.live, ∀ second ∈ state.live, first.stage = .pooled →
    second.stage = .pooled → first.entry = second.entry → first = second
  pooled : ∀ slot tick txs, state.pool.get (slot, tick) = some txs → ∀ tx ∈ txs,
    ∃ trigger ∈ state.live, trigger.stage = .pooled ∧ trigger.entry = ⟨slot, tick⟩ ∧
      nonceValue? tx = some trigger.nonceValue
  attempts : ∀ trigger ∈ state.live, ∀ attempts, trigger.stage = .dispatched attempts →
    ∀ tx ∈ attempts, nonceValue? tx = some trigger.nonceValue

theorem opened_eq_some {preparer : Preparer.State} {trigger : LiveTrigger}
    (same : opened preparer = some trigger) :
    trigger.stage = .signing ∧ ∃ signing, preparer.signing = some signing ∧
      signing.entry = trigger.entry ∧ signing.nonceId = some trigger.nonceId ∧
      signing.blockhash = trigger.blockhash := by
  obtain ⟨signing, found, named⟩ := Option.bind_eq_some_iff.mp same
  obtain ⟨id, known, rfl⟩ := Option.map_eq_some_iff.mp named
  exact ⟨rfl, signing, found, rfl, known, rfl⟩

theorem nextEntry_signing (preparer : Preparer.State) (received : Option ScheduleEntry)
    (currentSlot : Nat) :
    (Preparer.nextEntry preparer received currentSlot).1.signing = preparer.signing := by
  unfold Preparer.nextEntry
  split
  · split <;> rfl
  · rfl

theorem maybeEvict_signing (preparer : Preparer.State) (pool : TxPool) (currentSlot : Nat)
    (now : Instant) :
    (Preparer.maybeEvict preparer pool currentSlot now).1.signing = preparer.signing := by
  unfold Preparer.maybeEvict
  split <;> rfl

theorem opened_congr {first second : Preparer.State} (same : first.signing = second.signing) :
    opened first = opened second := by
  simp only [opened, same]

/-- A step that leaves the triggers, the pool and what is being signed. -/
theorem Tied.congr {first second : State} (tied : Tied first) (pool : second.pool = first.pool)
    (live : second.live = first.live)
    (signing : second.preparer.signing = first.preparer.signing) : Tied second where
  signing := by
    rw [live, opened_congr signing]
    exact tied.signing
  signed := by
    rw [live, opened_congr signing, signing]
    exact tied.signed
  single := by
    rw [live]
    exact tied.single
  pooled := by
    rw [pool, live]
    exact tied.pooled
  attempts := by
    rw [live]
    exact tied.attempts

theorem initial_tied (accounts : List NonceAccount) (startedAt : Instant) :
    Tied (initial accounts startedAt) where
  signing := by simp [initial]
  signed := by simp [initial]
  single := by simp [initial]
  pooled := by simp [initial]
  attempts := by simp [initial]

/-- A trigger that is being signed joins, when none was. -/
theorem Tied.cons {state : State} (tied : Tied state) (idle : state.preparer.signing = none)
    {preparer : Preparer.State} {trigger : LiveTrigger} (opens : opened preparer = some trigger)
    (manager : NonceManager) :
    Tied { state with
      preparer := preparer, manager := manager, live := trigger :: state.live } where
  signing := by
    intro other member stage
    rcases List.mem_cons.mp member with same | old
    · exact same ▸ opens
    · obtain ⟨_, signing, found, _⟩ := opened_eq_some (tied.signing other old stage)
      simp [idle] at found
  signed := fun _ _ => ⟨trigger, List.mem_cons_self .., opens⟩
  single := by
    have isSigning := (opened_eq_some opens).1
    intro first member second member' stage stage' same
    rcases List.mem_cons.mp member with rfl | old
    · simp [isSigning] at stage
    · rcases List.mem_cons.mp member' with rfl | old'
      · simp [isSigning] at stage'
      · exact tied.single first old second old' stage stage' same
  pooled := by
    intro slot tick txs found tx member
    obtain ⟨owner, live, rest⟩ := tied.pooled slot tick txs found tx member
    exact ⟨owner, List.mem_cons_of_mem _ live, rest⟩
  attempts := by
    intro other member attempts stage
    rcases List.mem_cons.mp member with rfl | old
    · simp [(opened_eq_some opens).1] at stage
    · exact tied.attempts other old attempts stage

theorem fetch_tied {state : State} (tied : Tied state) (received : Option ScheduleEntry)
    (currentSlot : Nat) (now : Instant) : Tied (fetch state received currentSlot now) := by
  unfold fetch
  split
  · exact tied
  · next idle =>
    rw [Option.not_isSome_iff_eq_none] at idle
    have unchanged := nextEntry_signing state.preparer received currentSlot
    split
    · next preparer found =>
      rw [found] at unchanged
      exact tied.congr rfl rfl unchanged
    · next preparer entry found =>
      rw [found] at unchanged
      unfold Preparer.takeNonce
      split
      · next id pubkey blockhash taken => exact tied.cons idle rfl _
      · have idleToo : preparer.signing = none := unchanged.trans idle
        have still : opened { preparer with pending := some entry } = none := by
          simp [opened, idleToo]
        simp only [still, Option.toList_none, List.nil_append]
        exact tied.congr rfl rfl unchanged

/-- What the transactions of an entry coming into the pool make of a trigger that is
then pooled. -/
theorem inserted_pooled {entry : ScheduleEntry} {trigger : LiveTrigger}
    (stage : (trigger.inserted entry).stage = .pooled) :
    trigger.stage = .signing ∧ trigger.inserted entry = { trigger with stage := .pooled } ∨
      trigger.stage = .pooled ∧ trigger.entry ≠ entry ∧ trigger.inserted entry = trigger := by
  unfold LiveTrigger.inserted at stage ⊢
  cases old : trigger.stage with
  | signing => exact .inl ⟨rfl, rfl⟩
  | pooled =>
    by_cases same : trigger.entry = entry
    · simp [old, same] at stage
    · simp [same]
  | replaced => simp [old] at stage
  | dispatched _ => simp [old] at stage

/-- Nothing is being signed once the pool has what was being signed. -/
theorem inserted_stage_ne_signing (entry : ScheduleEntry) (trigger : LiveTrigger) :
    (trigger.inserted entry).stage ≠ .signing := by
  intro stage
  unfold LiveTrigger.inserted at stage
  cases old : trigger.stage <;> simp only [old] at stage
  · cases stage
  · split at stage <;> simp_all
  · cases stage
  · cases stage

/-- An insert leaves a dispatched trigger alone, and dispatches none. -/
theorem inserted_dispatched {entry : ScheduleEntry} {trigger : LiveTrigger}
    {attempts : List PreSignedTx} (stage : (trigger.inserted entry).stage = .dispatched attempts) :
    trigger.stage = .dispatched attempts ∧ trigger.inserted entry = trigger := by
  unfold LiveTrigger.inserted at stage ⊢
  cases old : trigger.stage <;> simp only [old] at stage ⊢
  · cases stage
  · split at stage <;> simp_all
  · cases stage
  · exact ⟨by simpa using stage, trivial⟩

/-- The stock of another entry keeps the trigger that holds it. -/
theorem inserted_of_pooled {entry : ScheduleEntry} {trigger : LiveTrigger}
    (stage : trigger.stage = .pooled) (apart : trigger.entry ≠ entry) :
    trigger.inserted entry = trigger := by
  simp [LiveTrigger.inserted, stage, apart]

/-- Pooled triggers have different entries when the signed one has joined them, and no other
was being signed. -/
theorem inserted_single {live : List LiveTrigger} {owner : LiveTrigger} {entry : ScheduleEntry}
    (single : ∀ first ∈ live, ∀ second ∈ live, first.stage = .pooled →
      second.stage = .pooled → first.entry = second.entry → first = second)
    (only : ∀ trigger ∈ live, trigger.stage = .signing → trigger = owner)
    (ownEntry : entry = owner.entry) :
    ∀ first ∈ live.map (LiveTrigger.inserted entry),
      ∀ second ∈ live.map (LiveTrigger.inserted entry), first.stage = .pooled →
        second.stage = .pooled → first.entry = second.entry → first = second := by
  intro first member second member' stage stage' sameEntry
  obtain ⟨one, old, rfl⟩ := List.mem_map.mp member
  obtain ⟨other, old', rfl⟩ := List.mem_map.mp member'
  rcases inserted_pooled stage with ⟨wasSigning, is⟩ | ⟨wasPooled, apart, is⟩ <;>
    rcases inserted_pooled stage' with ⟨wasSigning', is'⟩ | ⟨wasPooled', apart', is'⟩
  · rw [only one old wasSigning, only other old' wasSigning']
  · rw [is, is'] at sameEntry
    rw [only one old wasSigning] at sameEntry
    exact absurd (sameEntry.symm.trans ownEntry.symm) apart'
  · rw [is, is'] at sameEntry
    rw [only other old' wasSigning'] at sameEntry
    exact absurd (sameEntry.trans ownEntry.symm) apart
  · rw [is, is'] at sameEntry ⊢
    exact single one old other old' wasPooled wasPooled' sameEntry

theorem insert_tied {state : State} (tied : Tied state) (signed : List (UInt8 × Signature)) :
    Tied (insert state signed) := by
  unfold insert
  split
  · exact tied
  · next signing found =>
    obtain ⟨owner, live, opens⟩ := tied.signed signing found
    obtain ⟨isSigning, same, found', ownEntry, ownId, ownHash⟩ := opened_eq_some opens
    rw [found] at found'
    cases found'
    have only : ∀ trigger ∈ state.live, trigger.stage = .signing → trigger = owner := by
      intro trigger member stage
      have opens' := tied.signing trigger member stage
      rw [opens] at opens'
      exact (Option.some.inj opens').symm
    have joined : owner.inserted signing.entry = { owner with stage := .pooled } := by
      simp [LiveTrigger.inserted, isSigning]
    simp only [Preparer.insertVariants, found]
    refine ⟨?_, by simp, ?_, ?_, ?_⟩
    · intro trigger member stage
      obtain ⟨before, _, rfl⟩ := List.mem_map.mp member
      exact absurd stage (inserted_stage_ne_signing _ before)
    · exact inserted_single tied.single only ownEntry
    · intro slot tick txs present tx member
      rw [TxPool.insertAll, HashTable.get_insert] at present
      split at present
      · next here =>
        cases present
        obtain ⟨pair, _, rfl⟩ := List.mem_map.mp member
        refine ⟨_, List.mem_map_of_mem live, by rw [joined], ?_, ?_⟩
        · rw [joined]
          cases here
          exact ownEntry.symm
        · simp [joined, nonceValue?, Preparer.Signing.variant, ownId, ownHash,
            LiveTrigger.nonceValue]
      · next elsewhere =>
        obtain ⟨holder, live', stage, placed, carries⟩ :=
          tied.pooled slot tick txs present tx member
        have apart : holder.entry ≠ signing.entry := by
          intro same
          rw [placed] at same
          exact elsewhere (by simp [← same])
        refine ⟨_, List.mem_map_of_mem live', ?_⟩
        rw [inserted_of_pooled stage apart]
        exact ⟨stage, placed, carries⟩
    · intro trigger member attempts stage
      obtain ⟨before, old, rfl⟩ := List.mem_map.mp member
      obtain ⟨was, unchanged⟩ := inserted_dispatched stage
      rw [unchanged]
      exact tied.attempts before old attempts was

theorem evict_tied {state : State} (tied : Tied state) (currentSlot : Nat) (now : Instant) :
    Tied (evict state currentSlot now) := by
  have unchanged := maybeEvict_signing state.preparer state.pool currentSlot now
  unfold evict
  cases cut : Preparer.evictCutoff state.preparer currentSlot now with
  | none =>
    refine tied.congr ?_ rfl unchanged
    simp only [Preparer.maybeEvict, cut]
  | some cutoff =>
    have survives : ∀ trigger ∈ state.live, trigger.evictedBelow cutoff = false →
        trigger ∈ state.live.filter fun trigger => !trigger.evictedBelow cutoff := by
      intro trigger member stays
      exact List.mem_filter.mpr ⟨member, by simp [stays]⟩
    refine ⟨?_, ?_, ?_, ?_, ?_⟩
    · intro trigger member stage
      rw [opened_congr unchanged]
      exact tied.signing trigger (List.mem_of_mem_filter member) stage
    · intro signing found
      rw [unchanged] at found
      obtain ⟨trigger, member, opens⟩ := tied.signed signing found
      rw [opened_congr unchanged]
      exact ⟨trigger, survives trigger member (by
        simp [LiveTrigger.evictedBelow, (opened_eq_some opens).1]), opens⟩
    · intro first member second member'
      exact tied.single first (List.mem_of_mem_filter member) second
        (List.mem_of_mem_filter member')
    · intro slot tick txs present tx member
      simp only [Preparer.maybeEvict, cut, TxPool.evictBelow, HashTable.get_retain,
        Option.filter_eq_some_iff, decide_eq_true_eq] at present
      obtain ⟨holder, live, stage, placed, carries⟩ :=
        tied.pooled slot tick txs present.1 tx member
      refine ⟨holder, survives holder live ?_, stage, placed, carries⟩
      simp only [LiveTrigger.evictedBelow, placed, Bool.and_eq_false_iff, decide_eq_false_iff_not]
      exact .inr (Nat.not_lt.mpr present.2)
    · intro trigger member
      exact tied.attempts trigger (List.mem_of_mem_filter member)

/-- What the dispatch of an entry makes of a trigger. -/
theorem dispatched_cases (entry : ScheduleEntry) (attempts : List PreSignedTx)
    (trigger : LiveTrigger) :
    (trigger.stage = .pooled ∧ trigger.entry = entry ∧
        trigger.dispatched entry attempts = { trigger with stage := .dispatched attempts }) ∨
      ¬ (trigger.stage = .pooled ∧ trigger.entry = entry) ∧
        trigger.dispatched entry attempts = trigger := by
  unfold LiveTrigger.dispatched
  split
  · next here => exact .inl ⟨here.1, here.2, rfl⟩
  · next elsewhere => exact .inr ⟨elsewhere, rfl⟩

/-- A trigger that is not dispatched afterwards was not touched. -/
theorem dispatched_eq_self {entry : ScheduleEntry} {attempts : List PreSignedTx}
    {trigger : LiveTrigger}
    (other : (trigger.dispatched entry attempts).stage ≠ .dispatched attempts) :
    trigger.dispatched entry attempts = trigger := by
  rcases dispatched_cases entry attempts trigger with ⟨_, _, is⟩ | ⟨_, is⟩
  · exact absurd (by rw [is]) other
  · exact is

section Dispatched

variable {live : List LiveTrigger} {trigger : LiveTrigger} {entry : ScheduleEntry}
  {attempts : List PreSignedTx}

/-- What is live after a dispatch comes from a trigger that was. -/
theorem mem_dispatched
    (member : trigger ∈ (live.map (LiveTrigger.dispatched entry attempts)).filter
      LiveTrigger.isLive) :
    ∃ before ∈ live, before.dispatched entry attempts = trigger :=
  List.mem_map.mp (List.mem_of_mem_filter member)

/-- Triggers that are not pooled for the entry stay. -/
theorem stays_dispatched (member : trigger ∈ live) (attempted : trigger.stage ≠ .dispatched [])
    (elsewhere : ¬(trigger.stage = .pooled ∧ trigger.entry = entry)) :
    trigger ∈ (live.map (LiveTrigger.dispatched entry attempts)).filter LiveTrigger.isLive := by
  refine List.mem_filter.mpr ⟨List.mem_map.mpr ⟨trigger, member, if_neg elsewhere⟩, ?_⟩
  simpa [LiveTrigger.isLive] using attempted

end Dispatched

theorem dispatch_tied {cfg : Dispatcher.Config} {state : State} (tied : Tied state)
    (trig : TriggerEvent) : Tied (dispatch cfg state trig) := by
  unfold dispatch Dispatcher.dispatch TxPool.take
  cases taken : state.pool.get (trig.slot, trig.tick) with
  | none =>
    refine ⟨tied.signing, tied.signed, tied.single, ?_, tied.attempts⟩
    intro slot tick txs present
    exact tied.pooled slot tick txs (HashTable.get_of_get_remove present)
  | some variants =>
    refine ⟨?_, ?_, ?_, ?_, ?_⟩
    · intro trigger member stage
      obtain ⟨before, old, rfl⟩ := mem_dispatched member
      have is := dispatched_eq_self (by rw [stage]; nofun)
      rw [is] at stage ⊢
      exact tied.signing before old stage
    · intro signing found
      obtain ⟨trigger, member, opens⟩ := tied.signed signing found
      have isSigning := (opened_eq_some opens).1
      exact ⟨trigger, stays_dispatched member (by simp [isSigning]) (by simp [isSigning]), opens⟩
    · intro first member second member' stage stage' same
      obtain ⟨one, old, rfl⟩ := mem_dispatched member
      obtain ⟨other, old', rfl⟩ := mem_dispatched member'
      have is := dispatched_eq_self (by rw [stage]; nofun)
      have is' := dispatched_eq_self (by rw [stage']; nofun)
      rw [is] at stage same ⊢
      rw [is'] at stage' same ⊢
      exact tied.single one old other old' stage stage' same
    · intro slot tick txs present tx member
      simp only [HashTable.get_remove] at present
      split at present
      · simp at present
      · next apart =>
        obtain ⟨holder, live, stage, placed, carries⟩ :=
          tied.pooled slot tick txs present tx member
        refine ⟨holder, stays_dispatched live (by simp [stage]) ?_, stage, placed, carries⟩
        rintro ⟨_, same⟩
        rw [placed] at same
        cases same
        exact apart rfl
    · intro trigger member attempts stage tx sent
      obtain ⟨before, old, rfl⟩ := mem_dispatched member
      rcases dispatched_cases ⟨trig.slot, trig.tick⟩ (attemptsOf cfg trig variants) before with
        ⟨wasPooled, here, is⟩ | ⟨_, is⟩
      · rw [is] at stage ⊢
        cases stage
        obtain ⟨holder, live, pooled, placed, carries⟩ :=
          tied.pooled _ _ variants taken tx (List.mem_of_mem_filter sent)
        have same := tied.single before old holder live wasPooled pooled (here.trans placed.symm)
        rw [carries, same]
        rfl
      · rw [is] at stage ⊢
        exact tied.attempts before old attempts stage tx sent

/-- A final attempt changes the attempts of a dispatched trigger only. -/
theorem finalised_cases (signature : Signature) (trigger : LiveTrigger) :
    (∃ attempts, trigger.stage = .dispatched attempts ∧ trigger.finalised signature =
        { trigger with
          stage := .dispatched (attempts.filter fun tx => tx.signature ≠ signature) }) ∨
      (∀ attempts, trigger.stage ≠ .dispatched attempts) ∧
        trigger.finalised signature = trigger := by
  unfold LiveTrigger.finalised
  cases stage : trigger.stage with
  | dispatched attempts => exact .inl ⟨attempts, rfl, rfl⟩
  | signing | pooled | replaced => exact .inr ⟨by simp, rfl⟩

theorem finalise_tied {state : State} (tied : Tied state) (target : LiveTrigger)
    (signature : Signature) : Tied (finalise state target signature) := by
  have stays : ∀ trigger ∈ state.live, (∀ attempts, trigger.stage ≠ .dispatched attempts) →
      trigger ∈ (finalise state target signature).live := by
    intro trigger member undispatched
    refine List.mem_filter.mpr ⟨List.mem_map.mpr ⟨trigger, member, ?_⟩, ?_⟩
    · split
      · rcases finalised_cases signature trigger with ⟨attempts, stage, _⟩ | ⟨_, is⟩
        · exact absurd stage (undispatched attempts)
        · exact is
      · rfl
    · simpa [LiveTrigger.isLive] using undispatched []
  -- A trigger of the new state is an old one, or an old one with fewer attempts.
  have origin : ∀ trigger ∈ (finalise state target signature).live,
      trigger ∈ state.live ∨ ∃ before ∈ state.live, ∃ attempts,
        before.stage = .dispatched attempts ∧ trigger = { before with
          stage := .dispatched (attempts.filter fun tx => tx.signature ≠ signature) } := by
    intro trigger member
    obtain ⟨before, old, rfl⟩ := List.mem_map.mp (List.mem_of_mem_filter member)
    split
    · rcases finalised_cases signature before with ⟨attempts, stage, is⟩ | ⟨_, is⟩
      · exact .inr ⟨before, old, attempts, stage, is⟩
      · exact .inl (by rwa [is])
    · exact .inl old
  refine ⟨?_, ?_, ?_, ?_, ?_⟩
  · intro trigger member stage
    rcases origin trigger member with old | ⟨before, _, attempts, _, rfl⟩
    · exact tied.signing trigger old stage
    · simp at stage
  · intro signing found
    obtain ⟨trigger, member, opens⟩ := tied.signed signing found
    exact ⟨trigger, stays trigger member (by simp [(opened_eq_some opens).1]), opens⟩
  · intro first member second member' stage stage'
    rcases origin first member with old | ⟨before, _, attempts, _, rfl⟩
    · rcases origin second member' with old' | ⟨before', _, attempts', _, rfl⟩
      · exact tied.single first old second old' stage stage'
      · simp at stage'
    · simp at stage
  · intro slot tick txs present tx member
    obtain ⟨holder, live, stage, placed, carries⟩ := tied.pooled slot tick txs present tx member
    exact ⟨holder, stays holder live (by simp [stage]), stage, placed, carries⟩
  · intro trigger member attempts stage tx sent
    rcases origin trigger member with old | ⟨before, old, sentBefore, wasSent, rfl⟩
    · exact tied.attempts trigger old attempts stage tx sent
    · cases stage
      exact tied.attempts before old sentBefore wasSent tx (List.mem_of_mem_filter sent)

/-- **Every step of a thread keeps the live triggers in agreement with the
transactions.** -/
theorem step_tied {cfg : Dispatcher.Config} {state : State} (tied : Tied state) (input : Input) :
    Tied (step cfg state input) := by
  cases input with
  | fetch received currentSlot now => exact fetch_tied tied received currentSlot now
  | insert signed => exact insert_tied tied signed
  | evict currentSlot now => exact evict_tied tied currentSlot now
  | dispatch trig => exact dispatch_tied tied trig
  | finalise target signature => exact finalise_tied tied target signature
  | onObservedLanding _ _ | onLandingWithBlockhash _ _ | tickTimeouts _ _ _
  | onFallbackRefresh _ _ => exact tied.congr rfl rfl rfl

theorem run_tied (cfg : Dispatcher.Config) (accounts : List NonceAccount) (startedAt : Instant)
    (inputs : List Input) : Tied (run cfg accounts startedAt inputs) := by
  induction inputs using List.reverseRecOn with
  | nil => exact initial_tied accounts startedAt
  | append_singleton past input ih =>
    rw [run_concat]
    exact step_tied ih input

end SenderAnalysis.TriggerLives

import SenderAnalysis.FanOut.Pipeline.ScheduleFlow
import SenderAnalysis.Foundations.Ledgers

/-!
# The accounts of the scheduled triggers

For every slot and tick the offers are accounted for: each was refused, waits in the
channel, was late, is held by the preparer, or was prepared; and what was prepared was
replaced in the pool, dropped from it, dispatched, or is there (`Account`). Every step of
every thread keeps these accounts (`moves_step`), so they hold in every interleaving
(`account_run`).

Nothing is assumed of the schedule here. An entry that is offered twice is accounted for
twice.
-/

set_option autoImplicit false

namespace SenderAnalysis.ScheduleFlow

section Events

def Event.offered? : Event → Option (Nat × Nat)
  | .queued entry | .refused entry => some entry.key
  | _ => none

def Event.refused? : Event → Option (Nat × Nat)
  | .refused entry => some entry.key
  | _ => none

def Event.pastSlot? : Event → Option (Nat × Nat)
  | .pastSlot entry => some entry.key
  | _ => none

def Event.prepared? : Event → Option (Nat × Nat)
  | .prepared entry => some entry.key
  | _ => none

def Event.replaced? : Event → Option (Nat × Nat)
  | .replaced entry => some entry.key
  | _ => none

def Event.dropped? : Event → Option (Nat × Nat)
  | .dropped key => some key
  | _ => none

def Event.hit? : Event → Option (Nat × Nat)
  | .hit trig _ => some (trig.slot, trig.tick)
  | _ => none

end Events

/-- How often a slot and tick waits in the channel. -/
def waiting (key : Nat × Nat) (state : State) : Nat :=
  (state.queue.map ScheduleEntry.key).count key

/-- The entries the preparer has in hand. -/
def held (preparer : Preparer.State) : List ScheduleEntry :=
  preparer.pending.toList ++ preparer.signing.toList.map Preparer.Signing.entry

/-- How often the preparer has a slot and tick in hand. -/
def holding (key : Nat × Nat) (state : State) : Nat :=
  ((held state.preparer).map ScheduleEntry.key).count key

/-- Whether a slot and tick has transactions in the pool. -/
def pooled (key : Nat × Nat) (state : State) : Nat :=
  if (state.pool.get key).isSome then 1 else 0

/-- What the events say of a slot and tick, and what has become of it. -/
structure Account (key : Nat × Nat) (state : State) (events : List Event) : Prop where
  offered : times Event.offered? key events =
    times Event.refused? key events + waiting key state + times Event.pastSlot? key events +
      holding key state + times Event.prepared? key events
  prepared : times Event.prepared? key events =
    times Event.replaced? key events + times Event.dropped? key events +
      times Event.hit? key events + pooled key state

/-- What became of the offers of a slot and tick, the preparer's part summed up. -/
theorem Account.fates {key : Nat × Nat} {state : State} {events : List Event}
    (account : Account key state events) :
    times Event.offered? key events =
      times Event.refused? key events + waiting key state + times Event.pastSlot? key events +
        holding key state + times Event.dropped? key events + times Event.hit? key events +
        pooled key state + times Event.replaced? key events := by
  have offered := account.offered
  have prepared := account.prepared
  omega

/-- What a step does to the account of a slot and tick. -/
structure Moves (key : Nat × Nat) (state : State) (result : State × List Event) : Prop where
  offered : times Event.offered? key result.2 + waiting key state + holding key state =
    times Event.refused? key result.2 + waiting key result.1 +
      times Event.pastSlot? key result.2 + holding key result.1 +
      times Event.prepared? key result.2
  prepared : times Event.prepared? key result.2 + pooled key state =
    times Event.replaced? key result.2 + times Event.dropped? key result.2 +
      times Event.hit? key result.2 + pooled key result.1
  replaced : times Event.replaced? key result.2 = 0 ∨
    (0 < holding key state ∧ pooled key state = 1)

theorem Account.step {key : Nat × Nat} {state : State} {events : List Event}
    {result : State × List Event} (account : Account key state events)
    (moves : Moves key state result) : Account key result.1 (events ++ result.2) := by
  obtain ⟨offered, prepared⟩ := account
  obtain ⟨offered', prepared', _⟩ := moves
  constructor <;> simp only [times_append] <;> omega

section Steps

variable (key : Nat × Nat) (state : State)

/-- A step that touches neither the channel nor the preparer's entries nor the pool. -/
theorem Moves.idle {state next : State} {events : List Event} (queue : next.queue = state.queue)
    (hand : held next.preparer = held state.preparer) (pool : next.pool = state.pool)
    (silent : events.filterMap Event.offered? = [] ∧ events.filterMap Event.pastSlot? = [] ∧
      events.filterMap Event.prepared? = [] ∧ events.filterMap Event.refused? = [] ∧
      events.filterMap Event.replaced? = [] ∧ events.filterMap Event.dropped? = [] ∧
      events.filterMap Event.hit? = []) : Moves key state (next, events) := by
  obtain ⟨noOffer, noPast, noPrepared, noRefused, noReplaced, noDropped, noHit⟩ := silent
  constructor
  · simp only [times, noOffer, noPast, noPrepared, noRefused, waiting, holding, queue, hand,
      List.count_nil]
    omega
  · simp only [times, noPrepared, noReplaced, noDropped, noHit, pooled, pool, List.count_nil]
  · left
    rw [times, noReplaced, List.count_nil]

theorem moves_offer (accepted : Bool) : Moves key state (offer state accepted) := by
  unfold offer
  split
  · exact .idle key rfl rfl rfl ⟨rfl, rfl, rfl, rfl, rfl, rfl, rfl⟩
  · next entry chunk _ =>
    cases accepted with
    | false =>
      constructor
      · simp [Event.offered?, Event.refused?, Event.pastSlot?, Event.prepared?, waiting, holding]
      · simp [Event.prepared?, Event.replaced?, Event.dropped?, Event.hit?, pooled]
      · exact .inl rfl
    | true =>
      constructor
      · simp [Event.offered?, Event.refused?, Event.pastSlot?, Event.prepared?, waiting, holding,
          List.count_append, List.count_cons]
        omega
      · simp [Event.prepared?, Event.replaced?, Event.dropped?, Event.hit?, pooled]
      · exact .inl rfl

/-- What the preparer goes on with is what waited with it or came from the channel. -/
theorem receive_counts (preparer : Preparer.State) (queue : List ScheduleEntry) :
    ((preparer.pending <|> (receive preparer queue).1).toList.map ScheduleEntry.key).count key +
        ((receive preparer queue).2.map ScheduleEntry.key).count key =
      (preparer.pending.toList.map ScheduleEntry.key).count key +
        (queue.map ScheduleEntry.key).count key := by
  unfold receive
  split
  · next entry rest waits =>
    simp [waits, List.count_cons]
    omega
  · next others =>
    cases waits : preparer.pending with
    | some entry => simp
    | none => simp

/-- The preparer lets the entry go, or goes on with it; then it has nothing in hand. -/
theorem nextEntry_spec {preparer : Preparer.State} (free : preparer.signing = none)
    (received : Option ScheduleEntry) (currentSlot : Nat) :
    held (Preparer.nextEntry preparer received currentSlot).1 = [] ∧
      ∀ entry, (Preparer.nextEntry preparer received currentSlot).2 = some entry →
        (preparer.pending <|> received) = some entry := by
  unfold Preparer.nextEntry
  split
  · next entry found =>
    split
    · exact ⟨by simp [held, free], fun other same => by cases same⟩
    · refine ⟨by simp [held, free], ?_⟩
      rintro other ⟨⟩
      exact found
  · next absent =>
    have nothing : preparer.pending = none := by
      cases waits : preparer.pending with
      | none => rfl
      | some entry => simp [waits] at absent
    exact ⟨by simp [held, free, nothing], fun other same => by cases same⟩

/-- The entry is in hand afterwards, whether there is something to sign with or not. -/
theorem acquire_frame {state : State} {preparer : Preparer.State} (free : held preparer = [])
    (entry : ScheduleEntry) (now : Instant) :
    held (acquire state preparer entry now).preparer = [entry] ∧
      (acquire state preparer entry now).queue = state.queue ∧
      (acquire state preparer entry now).pool = state.pool := by
  have nothing : preparer.pending = none ∧ preparer.signing = none := by
    simpa [held] using free
  unfold acquire
  split
  · next manager _ =>
    refine ⟨?_, rfl, rfl⟩
    unfold Preparer.takeNonce
    split <;> simp [held, nothing]
  · refine ⟨?_, rfl, rfl⟩
    unfold Preparer.takeBlockhash
    split <;> simp [held, nothing]

theorem moves_fetch (currentSlot : Nat) (now : Instant) :
    Moves key state (fetch state currentSlot now) := by
  unfold fetch
  split
  · exact .idle key rfl rfl rfl ⟨rfl, rfl, rfl, rfl, rfl, rfl, rfl⟩
  · next quiet =>
    have free : state.preparer.signing = none := by
      have both := Bool.or_eq_false_iff.mp (Bool.eq_false_iff.mpr quiet)
      simpa using both.1
    have inHand : (held state.preparer).map ScheduleEntry.key =
        state.preparer.pending.toList.map ScheduleEntry.key := by
      simp [held, free]
    have counts := receive_counts key state.preparer state.queue
    have spec := nextEntry_spec free (receive state.preparer state.queue).1 currentSlot
    dsimp only
    split
    · next preparer found =>
      rw [found] at spec
      constructor
      · have past : times Event.pastSlot? key
            ((state.preparer.pending <|> (receive state.preparer state.queue).1).toList.map
              .pastSlot) =
              ((state.preparer.pending <|> (receive state.preparer state.queue).1).toList.map
                ScheduleEntry.key).count key := by
          cases state.preparer.pending <|> (receive state.preparer state.queue).1 <;> rfl
        have others : ∀ kind : Event → Option (Nat × Nat),
            (∀ entry, kind (.pastSlot entry) = none) →
            times kind key ((state.preparer.pending <|>
              (receive state.preparer state.queue).1).toList.map .pastSlot) = 0 := by
          intro kind silent
          cases state.preparer.pending <|> (receive state.preparer state.queue).1 <;>
            simp [silent]
        simp only [past, others Event.offered? fun _ => rfl, others Event.refused? fun _ => rfl,
          others Event.prepared? fun _ => rfl, waiting, holding, spec.1, inHand, List.map_nil,
          List.count_nil]
        omega
      · cases state.preparer.pending <|> (receive state.preparer state.queue).1 <;>
          simp [Event.prepared?, Event.replaced?, Event.dropped?, Event.hit?, pooled]
      · left
        cases state.preparer.pending <|> (receive state.preparer state.queue).1 <;> rfl
    · next preparer entry found =>
      rw [found] at spec
      obtain ⟨hand, queue, pool⟩ := @acquire_frame
        { state with queue := (receive state.preparer state.queue).2 } preparer spec.1 entry now
      rw [spec.2 entry rfl] at counts
      have silent : ∀ kind : Event → Option (Nat × Nat), (∀ entry, kind (.stalled entry) = none) →
          times kind key ((acquire { state with queue := (receive state.preparer state.queue).2 }
            preparer entry now).preparer.pending.toList.map .stalled) = 0 := by
        intro kind none
        cases (acquire { state with queue := (receive state.preparer state.queue).2 }
          preparer entry now).preparer.pending <;> simp [none]
      constructor
      · simp only [silent Event.offered? fun _ => rfl, silent Event.refused? fun _ => rfl,
          silent Event.pastSlot? fun _ => rfl, silent Event.prepared? fun _ => rfl, waiting,
          holding, hand, queue, inHand]
        simp only [Option.toList_some, List.map_cons, List.map_nil] at counts ⊢
        omega
      · simp only [silent Event.prepared? fun _ => rfl, silent Event.replaced? fun _ => rfl,
          silent Event.dropped? fun _ => rfl, silent Event.hit? fun _ => rfl, pooled, pool]
      · exact .inl (silent Event.replaced? fun _ => rfl)

theorem moves_insert (signed : List (UInt8 × Signature)) :
    Moves key state (insert state signed) := by
  unfold insert
  split
  · exact .idle key rfl rfl rfl ⟨rfl, rfl, rfl, rfl, rfl, rfl, rfl⟩
  · next signing found =>
    have inserted : Preparer.insertVariants state.preparer state.pool signed =
        ({ state.preparer with signing := none },
          state.pool.insert signing.entry.key (signed.map signing.variant)) := by
      rw [Preparer.insertVariants, found]
      rfl
    rw [inserted]
    constructor
    · by_cases old : (state.pool.get signing.entry.key).isSome <;>
        simp [old, Event.offered?, Event.refused?, Event.pastSlot?, Event.prepared?, waiting,
          holding, held, found, List.count_append, List.count_singleton]
      all_goals omega
    · by_cases own : signing.entry.key = key
      · subst own
        cases old : (state.pool.get signing.entry.key).isSome <;>
          simp [old, Event.prepared?, Event.replaced?, Event.dropped?, Event.hit?, pooled]
      · have other : (state.pool.insert signing.entry.key (signed.map signing.variant)).get key =
            state.pool.get key := HashTable.get_insert_of_ne _ _ fun same => own same.symm
        cases old : (state.pool.get signing.entry.key).isSome <;>
          simp [own, other, Event.prepared?, Event.replaced?, Event.dropped?, Event.hit?, pooled]
    · by_cases replaces : (state.pool.get signing.entry.key).isSome ∧ signing.entry.key = key
      · right
        obtain ⟨old, rfl⟩ := replaces
        constructor
        · simp [holding, held, found]
        · simp [pooled, old]
      · left
        by_cases old : (state.pool.get signing.entry.key).isSome
        · have other : signing.entry.key ≠ key := fun same => replaces ⟨old, same⟩
          simp [old, Event.replaced?, other]
        · simp [old, Event.replaced?]

theorem moves_startSweep (currentSlot : Nat) (now : Instant) :
    Moves key state (startSweep state currentSlot now) := by
  unfold startSweep
  split
  · exact .idle key rfl rfl rfl ⟨rfl, rfl, rfl, rfl, rfl, rfl, rfl⟩
  · refine .idle key rfl ?_ rfl ⟨rfl, rfl, rfl, rfl, rfl, rfl, rfl⟩
    unfold Preparer.maybeEvict
    dsimp only
    split <;> rfl

/-- A slot and tick is listed once when it has transactions in the pool. -/
theorem count_keys (pool : TxPool) :
    pool.keys.count key = if (pool.get key).isSome then 1 else 0 := by
  have distinct : pool.keys.Nodup := pool.nodupKeys
  have member : key ∈ pool.keys ↔ (pool.get key).isSome := by
    rw [Option.isSome_iff_exists]
    constructor
    · intro listed
      obtain ⟨⟨_, txs⟩, entry, rfl⟩ := List.mem_map.mp listed
      exact ⟨txs, HashTable.mem_entries.mp entry⟩
    · rintro ⟨txs, found⟩
      exact List.mem_map.mpr ⟨_, HashTable.mem_entries.mpr found, rfl⟩
  rw [distinct.count, if_congr member rfl rfl]

theorem moves_dropBelow : Moves key state (dropBelow state) := by
  unfold dropBelow
  split
  · next before cutoff _ =>
    have dropped : times Event.dropped? key
        ((state.pool.keys.filter fun other => other.1 < cutoff).map .dropped) =
          if key.1 < cutoff then pooled key state else 0 := by
      have listed : ((state.pool.keys.filter fun other => other.1 < cutoff).map
          Event.dropped).filterMap Event.dropped? =
            state.pool.keys.filter fun other => other.1 < cutoff := by
        rw [List.filterMap_map]
        exact List.filterMap_some
      rw [times, listed]
      split
      · next low =>
        rw [List.count_filter (by simpa using low), count_keys]
        rfl
      · next high =>
        refine List.count_eq_zero.mpr fun member => high ?_
        simpa using (List.mem_filter.mp member).2
    have silent : ∀ kind : Event → Option (Nat × Nat), (∀ other, kind (.dropped other) = none) →
        times kind key
          ((state.pool.keys.filter fun other => other.1 < cutoff).map .dropped) = 0 := by
      intro kind none
      rw [times, List.filterMap_map]
      change List.count key (List.filterMap (fun other => kind (.dropped other)) _) = 0
      simp [none]
    have left : pooled key { state with
        pool := state.pool.evictBelow cutoff, sweep := some (.dropped before) } =
          if key.1 < cutoff then 0 else pooled key state := by
      unfold pooled TxPool.evictBelow
      dsimp only
      rw [HashTable.get_retain]
      by_cases low : key.1 < cutoff
      · have fails : ¬ key.1 ≥ cutoff := Nat.not_le.mpr low
        cases found : state.pool.get key <;> simp [low, fails, Option.filter]
      · have stays : key.1 ≥ cutoff := Nat.le_of_not_lt low
        cases found : state.pool.get key <;> simp [low, stays, Option.filter]
    constructor
    · simp only [silent Event.offered? fun _ => rfl, silent Event.refused? fun _ => rfl,
        silent Event.pastSlot? fun _ => rfl, silent Event.prepared? fun _ => rfl, waiting, holding]
      omega
    · rw [silent Event.prepared? fun _ => rfl, silent Event.replaced? fun _ => rfl, dropped,
        silent Event.hit? fun _ => rfl, left]
      split <;> omega
    · exact .inl (silent Event.replaced? fun _ => rfl)
  · exact .idle key rfl rfl rfl ⟨rfl, rfl, rfl, rfl, rfl, rfl, rfl⟩
  · exact .idle key rfl rfl rfl ⟨rfl, rfl, rfl, rfl, rfl, rfl, rfl⟩

theorem moves_finishSweep : Moves key state (finishSweep state) := by
  unfold finishSweep
  split
  · refine .idle key rfl rfl rfl ?_
    split <;> exact ⟨rfl, rfl, rfl, rfl, rfl, rfl, rfl⟩
  · exact .idle key rfl rfl rfl ⟨rfl, rfl, rfl, rfl, rfl, rfl, rfl⟩
  · exact .idle key rfl rfl rfl ⟨rfl, rfl, rfl, rfl, rfl, rfl, rfl⟩

theorem moves_dispatch (trig : TriggerEvent) : Moves key state (dispatch state trig) := by
  unfold dispatch TxPool.take
  split
  · next pool variants taken =>
    have parts := Prod.mk.inj taken
    have found : state.pool.get (trig.slot, trig.tick) = some variants := parts.2
    have left : pool = state.pool.remove (trig.slot, trig.tick) := parts.1.symm
    subst left
    constructor
    · simp [Event.offered?, Event.refused?, Event.pastSlot?, Event.prepared?, waiting, holding]
    · by_cases own : (trig.slot, trig.tick) = key
      · subst own
        simp [Event.prepared?, Event.replaced?, Event.dropped?, Event.hit?, pooled, found]
      · have other : (state.pool.remove (trig.slot, trig.tick)).get key = state.pool.get key :=
          HashTable.get_remove_of_ne _ fun same => own same.symm
        simp [own, other, Event.prepared?, Event.replaced?, Event.dropped?, Event.hit?, pooled]
    · exact .inl rfl
  · refine .idle key rfl rfl rfl ?_
    split <;> exact ⟨rfl, rfl, rfl, rfl, rfl, rfl, rfl⟩

end Steps

/-- **Every step of every thread keeps the accounts.** -/
theorem moves_step (key : Nat × Nat) (state : State) (input : Input) :
    Moves key state (step state input) := by
  cases input with
  | offer accepted => exact moves_offer key state accepted
  | fetch currentSlot now => exact moves_fetch key state currentSlot now
  | insert signed => exact moves_insert key state signed
  | startSweep currentSlot now => exact moves_startSweep key state currentSlot now
  | dropBelow => exact moves_dropBelow key state
  | finishSweep => exact moves_finishSweep key state
  | dispatch trig => exact moves_dispatch key state trig
  | refresh | manage => exact .idle key rfl rfl rfl ⟨rfl, rfl, rfl, rfl, rfl, rfl, rfl⟩
  | nextChunk =>
    change Moves key state (nextChunk state)
    unfold nextChunk
    split <;> exact .idle key rfl rfl rfl ⟨rfl, rfl, rfl, rfl, rfl, rfl, rfl⟩
  | store =>
    change Moves key state (store state)
    unfold store
    split <;> exact .idle key rfl rfl rfl ⟨rfl, rfl, rfl, rfl, rfl, rfl, rfl⟩

/-- **Every offer of a slot and tick is accounted for, in every interleaving.** -/
theorem account_run (schedule : Schedule) (manager : Option NonceManager) (startedAt : Instant)
    (inputs : List Input) (key : Nat × Nat) :
    Account key (run schedule manager startedAt inputs).1
      (run schedule manager startedAt inputs).2 := by
  refine runAll_induction (fun state events account input _ => ?_) ⟨rfl, rfl⟩
  exact account.step (moves_step key state input)

end SenderAnalysis.ScheduleFlow

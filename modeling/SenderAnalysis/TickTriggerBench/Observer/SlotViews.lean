import SenderAnalysis.Foundations.Traces
import SenderAnalysis.TickTriggerBench.Observer.Model

/-!
# The observer, seen from one slot

What the observer counts in a slot depends on the first delivery of each entry of the slot,
and the transactions it sends depend on the pool at these moments. Repeats, entries of other
slots and changes of the pool in between do not matter, and neither does the pruning, as
long as the slot is not more than 200 slots behind (`run_view`).
-/

set_option autoImplicit false

namespace SenderAnalysis.TickTriggerBench.Observer

variable {cfg : Config} {slot : Nat}

/-! ## Moments -/

/-- A delivery of an entry, with the pool when it is handled. -/
abbrev Moment := EntryObservation × TxPool

def Input.observation? : Input → Option EntryObservation
  | observe obs _ => some obs
  | insert .. | take .. | pruneOlderThan _ => none

/-- The entries of a run, in the order they are handled. -/
def observations (inputs : List Input) : List EntryObservation :=
  inputs.filterMap Input.observation?

/-- The slot that the observer skips. -/
def firstSlot (inputs : List Input) : Option Nat :=
  (observations inputs).head?.map EntryObservation.slot

def momentsOf (pool : TxPool) : Input → List Moment
  | .observe obs _ => [(obs, pool)]
  | .insert .. | .take .. | .pruneOlderThan _ => []

/-- All deliveries of a run. -/
def handled (cfg : Config) (inputs : List Input) : List Moment :=
  (runAll (fun observer input => ((step cfg observer input).1, momentsOf observer.pool input)) {}
    inputs).2

/-- The deliveries of a slot. -/
def deliveries (cfg : Config) (slot : Nat) (inputs : List Input) : List Moment :=
  (handled cfg inputs).filter fun moment => moment.1.slot = slot

/-- The first deliveries of the entries of a slot. -/
def moments (cfg : Config) (slot : Nat) (inputs : List Input) : List Moment :=
  firstOccurrences (fun moment => moment.1.entryHash) (deliveries cfg slot inputs)

theorem observations_concat (past : List Input) (input : Input) :
    observations (past ++ [input]) = observations past ++ input.observation?.toList := by
  rw [observations, List.filterMap_append, List.filterMap_cons]
  cases input.observation? <;> rfl

theorem run_concat (cfg : Config) (past : List Input) (input : Input) :
    run cfg (past ++ [input]) = ((step cfg (run cfg past).1 input).1,
      (run cfg past).2 ++ (step cfg (run cfg past).1 input).2) :=
  runAll_concat ..

theorem handled_concat (cfg : Config) (past : List Input) (input : Input) :
    handled cfg (past ++ [input]) = handled cfg past ++ momentsOf (run cfg past).1.pool input := by
  have same : (runAll (fun observer input =>
      ((step cfg observer input).1, momentsOf observer.pool input)) {} past).1 =
        (run cfg past).1 := by
    refine runAll_fst_congr ?_ _ _
    exact fun _ _ => rfl
  rw [handled, runAll_concat, same]
  rfl

theorem deliveries_concat_observe (cfg : Config) (slot : Nat) (past : List Input)
    (obs : EntryObservation) (pending : List Bool) :
    deliveries cfg slot (past ++ [.observe obs pending]) =
      deliveries cfg slot past ++
        if obs.slot = slot then [(obs, (run cfg past).1.pool)] else [] := by
  rw [deliveries, handled_concat, List.filter_append]
  refine congrArg (deliveries cfg slot past ++ ·) ?_
  by_cases own : obs.slot = slot <;> simp [momentsOf, own]

/-- An input that is no entry of the slot brings no delivery of it. -/
theorem deliveries_concat_other (past : List Input) {input : Input}
    (other : ∀ obs ∈ input.observation?, obs.slot ≠ slot) :
    deliveries cfg slot (past ++ [input]) = deliveries cfg slot past := by
  cases input with
  | observe obs pending =>
    rw [deliveries_concat_observe, if_neg (other obs rfl), List.append_nil]
  | insert | take | pruneOlderThan =>
    rw [deliveries, handled_concat, momentsOf, List.append_nil]
    rfl

/-- The hashes of the entries of a slot that were delivered. -/
def delivered (cfg : Config) (slot : Nat) (inputs : List Input) : List Hash :=
  (deliveries cfg slot inputs).map fun moment => moment.1.entryHash

/-- A delivery of the slot is a moment when its entry is new. -/
theorem moments_concat_new {past : List Input} {obs : EntryObservation} (own : obs.slot = slot)
    (pending : List Bool) (new : obs.entryHash ∉ delivered cfg slot past) :
    moments cfg slot (past ++ [.observe obs pending]) =
      moments cfg slot past ++ [(obs, (run cfg past).1.pool)] := by
  rw [moments, deliveries_concat_observe, if_pos own, firstOccurrences_concat]
  exact congrArg _ (if_neg new)

theorem moments_concat_repeat {past : List Input} {obs : EntryObservation} (own : obs.slot = slot)
    (pending : List Bool) (old : obs.entryHash ∈ delivered cfg slot past) :
    moments cfg slot (past ++ [.observe obs pending]) = moments cfg slot past := by
  rw [moments, deliveries_concat_observe, if_pos own, firstOccurrences_concat]
  exact (congrArg _ (if_pos old)).trans (List.append_nil _)

theorem moments_concat_other (past : List Input) {input : Input}
    (other : ∀ obs ∈ input.observation?, obs.slot ≠ slot) :
    moments cfg slot (past ++ [input]) = moments cfg slot past := by
  rw [moments, deliveries_concat_other past other, moments]

theorem moments_slot {inputs : List Input} {moment : Moment}
    (member : moment ∈ moments cfg slot inputs) : moment.1.slot = slot := by
  have among := mem_of_mem_firstOccurrences _ member
  simpa using (List.mem_filter.mp among).2

/-! ## What a slot is given -/

/-- What a first delivery does to its slot, and what is given out for it. -/
def deliver (cfg : Config) (state : SlotState) (moment : Moment) :
    SlotState × List ObserverEffect :=
  ((countNew cfg moment.2 state moment.1).state, (countNew cfg moment.2 state moment.1).effects)

/-- An output is a tick of the slot, or a transaction sent for one. -/
def OfSlot (slot : Nat) : Output → Prop
  | .tick ev => ev.slot = slot
  | .send cmd => cmd.scheduleSlot = slot
  | .matched _ => False

instance (slot : Nat) (output : Output) : Decidable (OfSlot slot output) := by
  cases output <;> unfold OfSlot <;> infer_instance

/-- The outputs of a slot among effects. -/
def slotOutputs (slot : Nat) (effects : List ObserverEffect) : List Output :=
  (sent effects).filter (OfSlot slot)

@[simp] theorem slotOutputs_nil : slotOutputs slot [] = [] := rfl

@[simp] theorem slotOutputs_append (first second : List ObserverEffect) :
    slotOutputs slot (first ++ second) = slotOutputs slot first ++ slotOutputs slot second := by
  simp [slotOutputs]

@[simp] theorem slotOutputs_matchEvents (table : HashTable Nat SlotState) (obs : EntryObservation)
    (pending : List Bool) : slotOutputs slot (matchEvents table obs pending) = [] := by
  have matched : ∀ output ∈ sent (matchEvents table obs pending), ¬ OfSlot slot output := by
    intro output offered
    rw [mem_sent, matchEvents, List.mem_map] at offered
    obtain ⟨_, _, same⟩ := offered
    cases same
    exact id
  simpa [slotOutputs] using matched

theorem fire_ofSlot {pool : TxPool} {tick : UInt8} {observedAt : Instant} {output : Output}
    (offered : output ∈ sent (fire cfg pool slot tick observedAt).2) : OfSlot slot output := by
  unfold fire at offered
  split at offered
  · split at offered
    · rw [sent_fetchAdd, sent_fetchAdd, sent_trySend] at offered
      obtain rfl := List.mem_singleton.mp offered
      exact rfl
    · simp at offered
  · simp at offered

/-- Whatever is given out for a new entry is of its slot. -/
theorem countNew_ofSlot {pool : TxPool} {state : SlotState} {obs : EntryObservation}
    {output : Output} (offered : output ∈ sent (countNew cfg pool state obs).effects) :
    OfSlot obs.slot output := by
  unfold countNew at offered
  dsimp only at offered
  split at offered
  · split at offered
    · unfold countTick at offered
      dsimp only at offered
      split at offered
      · rw [sent_trySend] at offered
        obtain rfl := List.mem_singleton.mp offered
        exact rfl
      · rw [sent_trySend] at offered
        rcases List.mem_cons.mp offered with rfl | fired
        · exact rfl
        · exact fire_ofSlot fired
    · simp at offered
  · simp at offered

theorem slotOutputs_countNew (pool : TxPool) (state : SlotState) (obs : EntryObservation) :
    slotOutputs slot (countNew cfg pool state obs).effects =
      if obs.slot = slot then sent (countNew cfg pool state obs).effects else [] := by
  split
  · next own =>
    exact List.filter_eq_self.mpr fun output offered =>
      decide_eq_true (own ▸ countNew_ofSlot offered)
  · next other =>
    refine List.filter_eq_nil_iff.mpr fun output offered ofSlot => other ?_
    have mine := countNew_ofSlot offered
    have theirs := of_decide_eq_true ofSlot
    cases output with
    | tick ev => exact (show ev.slot = obs.slot from mine).symm.trans theirs
    | send cmd => exact (show cmd.scheduleSlot = obs.slot from mine).symm.trans theirs
    | matched ev => exact mine.elim

theorem countNew_seenEntries (cfg : Config) (pool : TxPool) (state : SlotState)
    (obs : EntryObservation) :
    (countNew cfg pool state obs).state.seenEntries = obs.entryHash :: state.seenEntries := by
  unfold countNew
  dsimp only
  split
  · split
    · unfold countTick
      dsimp only
      split <;> rfl
    · rfl
  · rfl

/-! ## The observer holds the view of a slot -/

/-- What the observer holds for a slot after the first deliveries of its entries. -/
def stateOf (cfg : Config) (moments : List Moment) : Option SlotState :=
  if moments = [] then none else some (runAll (deliver cfg) {} moments).1

/-- The entries of the slot come while it is not more than 200 slots behind. -/
def NotBehind (slot : Nat) (inputs : List Input) : Prop :=
  ∀ past obs pending rest, inputs = past ++ .observe obs pending :: rest →
    obs.slot = slot → ∀ earlier ∈ observations past, earlier.slot ≤ slot + 200

/-- The observer holds the view of a slot while it is not more than 200 slots behind, and
has given out for it what its first deliveries amount to. -/
structure View (cfg : Config) (slot : Nat) (past : List Input) : Prop where
  first : (run cfg past).1.firstSlotSeen = firstSlot past
  held : (∀ obs ∈ observations past, obs.slot ≤ slot + 200) →
    (run cfg past).1.slotState.get slot = stateOf cfg (moments cfg slot past)
  seen : ∀ hash, hash ∈ (runAll (deliver cfg) {} (moments cfg slot past)).1.seenEntries ↔
    hash ∈ delivered cfg slot past
  outputs : slotOutputs slot (run cfg past).2 =
    sent (runAll (deliver cfg) {} (moments cfg slot past)).2

theorem stateOf_getD (cfg : Config) (moments : List Moment) :
    (stateOf cfg moments).getD {} = (runAll (deliver cfg) {} moments).1 := by
  unfold stateOf
  split
  · next none' => rw [none']; rfl
  · rfl

theorem firstSlot_concat (past : List Input) (input : Input) :
    firstSlot (past ++ [input]) =
      (firstSlot past).or (input.observation?.map EntryObservation.slot) := by
  unfold firstSlot
  rw [observations_concat, List.head?_append, Option.map_or]
  cases input.observation? <;> rfl

/-- Pruning spares a slot that is not too far behind. -/
theorem prune_get {table : HashTable Nat SlotState} {newest : Nat} (near : newest ≤ slot + 200) :
    (prune table newest).get slot = table.get slot := by
  unfold prune
  split
  · rw [HashTable.get_retain]
    cases table.get slot <;> simp [near, Option.filter]
  · rfl

variable {past : List Input}

theorem View.other {input : Input} (view : View cfg slot past)
    (other : ∀ obs ∈ input.observation?, obs.slot ≠ slot)
    (first : (step cfg (run cfg past).1 input).1.firstSlotSeen =
      ((run cfg past).1.firstSlotSeen).or (input.observation?.map EntryObservation.slot))
    (held : (∀ obs ∈ input.observation?, obs.slot ≤ slot + 200) →
      (step cfg (run cfg past).1 input).1.slotState.get slot =
        (run cfg past).1.slotState.get slot)
    (silent : slotOutputs slot (step cfg (run cfg past).1 input).2 = []) :
    View cfg slot (past ++ [input]) where
  first := by rw [run_concat, first, view.first, firstSlot_concat]
  held := by
    intro near
    rw [observations_concat] at near
    rw [run_concat, moments_concat_other past other,
      held fun obs member => near obs (List.mem_append_right _ (by simpa using member))]
    exact view.held fun obs member => near obs (List.mem_append_left _ member)
  seen := by
    intro hash
    rw [moments_concat_other past other, view.seen, delivered, delivered,
      deliveries_concat_other past other]
  outputs := by
    rw [run_concat, slotOutputs_append, silent, List.append_nil, view.outputs,
      moments_concat_other past other]

theorem slotOutputs_ite (condition : Bool) (effects : List ObserverEffect)
    (silent : slotOutputs slot effects = []) :
    slotOutputs slot (if condition then [] else effects) = [] := by
  split
  · rfl
  · exact silent

/-- An entry of another slot. -/
theorem View.observe_other (view : View cfg slot past) {obs : EntryObservation}
    (apart : obs.slot ≠ slot) (pending : List Bool) :
    View cfg slot (past ++ [.observe obs pending]) := by
  have first : (observe cfg (run cfg past).1 obs pending).1.firstSlotSeen =
      ((run cfg past).1.firstSlotSeen).or (some obs.slot) := by
    unfold observe countObserved
    dsimp only
    split <;> cases (run cfg past).1.firstSlotSeen <;> rfl
  have held : obs.slot ≤ slot + 200 →
      (observe cfg (run cfg past).1 obs pending).1.slotState.get slot =
        (run cfg past).1.slotState.get slot := by
    intro near
    unfold observe countObserved
    dsimp only
    split
    · exact prune_get near
    · exact (HashTable.get_insert_of_ne _ _ (Ne.symm apart)).trans (prune_get near)
  have silent : slotOutputs slot (observe cfg (run cfg past).1 obs pending).2 = [] := by
    unfold observe countObserved
    dsimp only
    split
    · exact slotOutputs_matchEvents ..
    · unfold countEntry
      rw [slotOutputs_append, slotOutputs_ite _ _ (slotOutputs_matchEvents ..)]
      split
      · rfl
      · rw [slotOutputs_countNew, if_neg apart, List.append_nil]
  refine view.other ?_ first (fun near => held (near obs rfl)) silent
  intro other member
  rw [← Option.some.inj member]
  exact apart

theorem moments_ne_nil {hash : Hash} (old : hash ∈ delivered cfg slot past) :
    moments cfg slot past ≠ [] := by
  obtain ⟨moment, member, _⟩ := List.mem_map.mp old
  obtain ⟨first, listed, _⟩ := exists_firstOccurrence (fun m : Moment => m.1.entryHash) member
  exact List.ne_nil_of_mem listed

/-- An entry of the slot. -/
theorem View.observe_own (view : View cfg slot past) {obs : EntryObservation}
    (own : obs.slot = slot) (pending : List Bool) {first : Nat}
    (opened : firstSlot past = some first) (warm : slot ≠ first)
    (near : ∀ earlier ∈ observations past, earlier.slot ≤ slot + 200) :
    View cfg slot (past ++ [.observe obs pending]) := by
  have seenFirst : (run cfg past).1.firstSlotSeen = some first := view.first.trans opened
  have state : ((prune (run cfg past).1.slotState slot).get slot).getD {} =
      (runAll (deliver cfg) {} (moments cfg slot past)).1 := by
    rw [prune_get (Nat.le_add_right slot 200), view.held near, stateOf_getD]
  have stepped : step cfg (run cfg past).1 (.observe obs pending) =
      observe cfg (run cfg past).1 obs pending := rfl
  have first' : firstSlot (past ++ [.observe obs pending]) = some first := by
    rw [firstSlot_concat, opened, Option.some_or]
  have delivered' : delivered cfg slot (past ++ [.observe obs pending]) =
      delivered cfg slot past ++ [obs.entryHash] := by
    rw [delivered, deliveries_concat_observe, if_pos own, List.map_append]
    rfl
  unfold observe countObserved at stepped
  rw [own, seenFirst, Option.getD_some] at stepped
  dsimp only at stepped
  rw [if_neg warm, state] at stepped
  unfold countEntry at stepped
  by_cases old : obs.entryHash ∈ delivered cfg slot past
  · rw [if_pos ((view.seen _).mpr old)] at stepped
    have same := moments_concat_repeat own pending old
    refine ⟨?_, fun _ => ?_, fun hash => ?_, ?_⟩
    · rw [run_concat, stepped, first']
    · rw [run_concat, stepped, same, stateOf, if_neg (moments_ne_nil old)]
      exact HashTable.get_insert_self ..
    · rw [same, view.seen, delivered', List.mem_append]
      exact ⟨Or.inl, fun member => member.elim id fun new =>
        (List.mem_singleton.mp new) ▸ old⟩
    · rw [run_concat, stepped, same, slotOutputs_append, view.outputs]
      simp
  · rw [if_neg fun member => old ((view.seen _).mp member)] at stepped
    have grown := moments_concat_new own pending old
    refine ⟨?_, fun _ => ?_, fun hash => ?_, ?_⟩
    · rw [run_concat, stepped, first']
    · have some' : moments cfg slot past ++ [(obs, (run cfg past).1.pool)] ≠ [] := by simp
      rw [run_concat, stepped, grown, stateOf, if_neg some', runAll_concat]
      exact HashTable.get_insert_self ..
    · rw [grown, runAll_concat, delivered', List.mem_append, List.mem_singleton, ← view.seen hash]
      have counted := countNew_seenEntries cfg (run cfg past).1.pool
        (runAll (deliver cfg) {} (moments cfg slot past)).1 obs
      rw [deliver, counted, List.mem_cons]
      exact or_comm
    · rw [run_concat, stepped, grown, runAll_concat, slotOutputs_append, view.outputs, sent_append,
        slotOutputs_append, slotOutputs_countNew, if_pos own,
        slotOutputs_ite _ _ (slotOutputs_matchEvents ..), List.append_nil]
      rfl

theorem view_nil (cfg : Config) (slot : Nat) : View cfg slot [] where
  first := rfl
  held := fun _ => HashTable.get_empty slot
  seen := by simp [moments, deliveries, handled, delivered, firstOccurrences,
    firstOccurrencesFrom]
  outputs := rfl

/-- **The observer holds the view of every slot but the first.** -/
theorem run_view {inputs : List Input} (notFirst : firstSlot inputs ≠ some slot)
    (notBehind : NotBehind slot inputs) : View cfg slot inputs := by
  induction inputs using List.reverseRecOn with
  | nil => exact view_nil cfg slot
  | append_singleton past input ih =>
    have notFirst' : firstSlot past ≠ some slot := by
      intro opened
      exact notFirst (by rw [firstSlot_concat, opened, Option.some_or])
    have view := ih notFirst' fun before obs pending rest split =>
      notBehind before obs pending (rest ++ [input]) (by simp [split])
    have elsewhere (idle : input.observation? = none)
        (same : ∀ observer : State, (step cfg observer input).1.firstSlotSeen =
          observer.firstSlotSeen ∧ (step cfg observer input).1.slotState = observer.slotState ∧
          (step cfg observer input).2 = []) : View cfg slot (past ++ [input]) := by
      obtain ⟨first, held, silent⟩ := same (run cfg past).1
      refine view.other ?_ ?_ (fun _ => by rw [held]) (by rw [silent]; rfl)
      · intro obs member
        rw [idle] at member
        cases member
      · rw [first, idle, Option.map_none, Option.or_none]
    cases input with
    | observe obs pending =>
      by_cases own : obs.slot = slot
      · cases opened : firstSlot past with
        | none =>
          rw [firstSlot_concat, opened, Option.none_or] at notFirst
          exact absurd (congrArg some own) notFirst
        | some first =>
          have warm : slot ≠ first := fun same => notFirst' (same ▸ opened)
          exact view.observe_own own pending opened warm
            (notBehind past obs pending [] rfl own)
      · exact view.observe_other own pending
    | insert key tick tx => exact elsewhere rfl fun _ => ⟨rfl, rfl, rfl⟩
    | take key tick => exact elsewhere rfl fun _ => ⟨rfl, rfl, rfl⟩
    | pruneOlderThan cutoff => exact elsewhere rfl fun _ => ⟨rfl, rfl, rfl⟩

end SenderAnalysis.TickTriggerBench.Observer

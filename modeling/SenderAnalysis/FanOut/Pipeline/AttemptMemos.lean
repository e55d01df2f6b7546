import SenderAnalysis.FanOut.Preparer
import SenderAnalysis.FanOut.Recorder.Model
import SenderAnalysis.FanOut.TriggerEngine.Compaction
import SenderAnalysis.FanOut.TxBuilder

/-!
# The memos of a run's attempts

Transactions get their memo in two places: the preparer builds them ahead of time from
a schedule entry, and without nonces the dispatcher builds them from a fired trigger
when the pool has none. In both cases the memo is that of the slot and tick the
transaction is sent for, so the memo of an attempt tells its trigger and its sender
(`memo_run`).

Attempts with the same memo are therefore of the same sender, slot and tick. When every
tick fires once and every trigger's transactions go to different senders, there are
none (`memos_nodup`). A tick the engine forgot may fire again, and the configuration may
give two senders one id; then attempts do share a memo (`memos_repeat`).
-/

set_option autoImplicit false

namespace SenderAnalysis.AttemptMemos

/-! ## Built transactions -/

/-- A signed transaction and its memo. -/
structure BuiltTx where
  presigned : PreSignedTx
  memo : String
deriving DecidableEq, Repr

/-- The transaction the preparer builds for a sender. -/
def preparedTx (signing : Preparer.Signing) (signed : UInt8 × Signature) : BuiltTx where
  presigned := signing.variant signed
  memo := memoPayload signed.1
    (TriggerId.fromSlotTick signing.entry.slot signing.entry.tick).value

/-- The transaction the dispatcher builds for a sender when the pool has none. -/
def fallbackTx (trig : TriggerEvent) (blockhash : Hash)
    (signed : UInt8 × Signature × Instant) : BuiltTx where
  presigned := {
    senderId := signed.1
    signature := signed.2.1
    blockhash := blockhash
    preparedAt := signed.2.2
    nonceId := none }
  memo := memoPayload signed.1 trig.triggerId.value

/-- The built transactions for every slot and tick. -/
abbrev Pool := HashTable (Nat × Nat) (List BuiltTx)

/-- What happens next: the preparer puts the transactions of an entry into the pool or
sweeps it, or the dispatcher takes a trigger. In nonce mode, and as long as there is no
blockhash, it has no transactions to fall back to. -/
inductive Input where
  | insert (signing : Preparer.Signing) (signed : List (UInt8 × Signature))
  | evict (cutoffSlot : Nat)
  | dispatch (trig : TriggerEvent) (fallback : Option (Hash × List (UInt8 × Signature × Instant)))

/-- An attempt as it is registered, and the memo of its transaction. -/
structure Attempt where
  reg : RegisterEvent
  memo : String
deriving DecidableEq, Repr

/-- The transactions of a trigger: those in the pool, else those of the fallback. -/
def variants (pool : Pool) (trig : TriggerEvent)
    (fallback : Option (Hash × List (UInt8 × Signature × Instant))) : List BuiltTx :=
  match pool.get (trig.slot, trig.tick) with
  | some txs => txs
  | none =>
      match fallback with
      | some (blockhash, signed) => signed.map (fallbackTx trig blockhash)
      | none => []

/-- The attempt of a transaction, when its sender is configured. -/
def attemptOf (cfg : Dispatcher.Config) (trig : TriggerEvent) (tx : BuiltTx) : Option Attempt :=
  (Dispatcher.registration cfg trig tx.presigned).map fun reg => ⟨reg, tx.memo⟩

/-- One input: the pool after it and the attempts it registers. -/
def step (cfg : Dispatcher.Config) (pool : Pool) : Input → Pool × List Attempt
  | .insert signing signed =>
      (pool.insert (signing.entry.slot, signing.entry.tick) (signed.map (preparedTx signing)), [])
  | .evict cutoffSlot => (pool.retain fun key _ => key.1 ≥ cutoffSlot, [])
  | .dispatch trig fallback =>
      (pool.remove (trig.slot, trig.tick),
        (variants pool trig fallback).filterMap (attemptOf cfg trig))

/-- The attempts of a run. -/
def attempts (cfg : Dispatcher.Config) (inputs : List Input) : List Attempt :=
  (runAll (step cfg) .empty inputs).2

/-- The trigger an input dispatches. -/
def Input.trigger? : Input → Option TriggerEvent
  | .dispatch trig _ => some trig
  | .insert _ _ | .evict _ => none

/-- The triggers that are dispatched, in order. -/
def dispatched (inputs : List Input) : List TriggerEvent := inputs.filterMap Input.trigger?

/-! ## What a registration tells -/

theorem registration_fields {cfg : Dispatcher.Config} {trig : TriggerEvent}
    {presigned : PreSignedTx} {reg : RegisterEvent}
    (found : Dispatcher.registration cfg trig presigned = some reg) :
    reg.triggerId = trig.triggerId ∧ reg.senderId = presigned.senderId ∧ reg.slot = trig.slot ∧
      reg.tick = trig.tick := by
  unfold Dispatcher.registration at found
  split at found
  · cases found
  · next senderCfg listed =>
    have own : senderCfg.id = presigned.senderId := by simpa using List.find?_some listed
    split at found
    · cases found
    · cases found
      exact ⟨rfl, own, rfl, rfl⟩

theorem attemptOf_eq_some {cfg : Dispatcher.Config} {trig : TriggerEvent} {tx : BuiltTx}
    {attempt : Attempt} (found : attemptOf cfg trig tx = some attempt) :
    attempt.reg.triggerId = trig.triggerId ∧ attempt.reg.senderId = tx.presigned.senderId ∧
      attempt.reg.slot = trig.slot ∧ attempt.reg.tick = trig.tick ∧ attempt.memo = tx.memo := by
  obtain ⟨reg, registered, rfl⟩ := Option.map_eq_some_iff.mp found
  obtain ⟨trigger, sender, slot, tick⟩ := registration_fields registered
  exact ⟨trigger, sender, slot, tick, rfl⟩

/-! ## Where memos come from -/

/-- The memo of a transaction for a slot and a tick. -/
def Labelled (slot tick : Nat) (tx : BuiltTx) : Prop :=
  tx.memo = memoPayload tx.presigned.senderId (TriggerId.fromSlotTick slot tick).value

/-- All transactions in the pool have the memo of their slot and tick. -/
def PoolLabelled (pool : Pool) : Prop :=
  ∀ key txs, pool.get key = some txs → ∀ tx ∈ txs, Labelled key.1 key.2 tx

/-- The memo, the id, the slot and the tick of an attempt belong together. -/
structure Attempt.Coherent (attempt : Attempt) : Prop where
  memo : attempt.memo = memoPayload attempt.reg.senderId attempt.reg.triggerId.value
  packed : attempt.reg.triggerId = .fromSlotTick attempt.reg.slot attempt.reg.tick

theorem variants_labelled {pool : Pool} (labelled : PoolLabelled pool) {trig : TriggerEvent}
    (packed : TriggerEngine.Packed trig)
    (fallback : Option (Hash × List (UInt8 × Signature × Instant))) :
    ∀ tx ∈ variants pool trig fallback, Labelled trig.slot trig.tick tx := by
  intro tx member
  unfold variants at member
  split at member
  · next txs found => exact labelled _ txs found tx member
  · split at member
    · obtain ⟨signed, _, rfl⟩ := List.mem_map.mp member
      rw [Labelled, ← packed]
      rfl
    · cases member

theorem poolLabelled_step (cfg : Dispatcher.Config) {pool : Pool} (labelled : PoolLabelled pool)
    (input : Input) : PoolLabelled (step cfg pool input).1 := by
  intro key txs found
  cases input with
  | insert signing signed =>
    rw [step, HashTable.get_insert] at found
    split at found
    · next same =>
      cases found
      intro tx member
      obtain ⟨pair, _, rfl⟩ := List.mem_map.mp member
      rw [same]
      rfl
    · exact labelled key txs found
  | evict cutoffSlot =>
    rw [step, HashTable.get_retain, Option.filter_eq_some_iff] at found
    exact labelled key txs found.1
  | dispatch trig fallback => exact labelled key txs (HashTable.get_of_get_remove found)

/-- **The memo of every attempt of a run is that of its sender, slot and tick.** -/
theorem memo_run (cfg : Dispatcher.Config) {inputs : List Input}
    (packed : ∀ trig ∈ dispatched inputs, TriggerEngine.Packed trig) :
    ∀ attempt ∈ attempts cfg inputs, attempt.Coherent ∧
      ∃ trig ∈ dispatched inputs, attempt.reg.slot = trig.slot ∧ attempt.reg.tick = trig.tick := by
  have blank : PoolLabelled .empty := by
    intro key txs found
    rw [HashTable.get_empty] at found
    cases found
  refine (runAll_outputs ?_ blank).2
  intro pool labelled input member
  refine ⟨poolLabelled_step cfg labelled input, ?_⟩
  intro attempt registered
  cases input with
  | insert | evict => cases registered
  | dispatch trig fallback =>
    have listed : trig ∈ dispatched inputs := List.mem_filterMap.mpr ⟨_, member, rfl⟩
    obtain ⟨tx, built, found⟩ := List.mem_filterMap.mp registered
    obtain ⟨trigger, sender, slot, tick, memo⟩ := attemptOf_eq_some found
    have label := variants_labelled labelled (packed trig listed) fallback tx built
    refine ⟨⟨?_, ?_⟩, trig, listed, slot, tick⟩
    · rw [memo, label, sender, trigger, packed trig listed]
    · rw [trigger, slot, tick]
      exact packed trig listed

/-! ## Attempts that are told apart -/

/-- The sender, the slot and the tick of an attempt. -/
def Attempt.point (attempt : Attempt) : UInt8 × Nat × Nat :=
  (attempt.reg.senderId, attempt.reg.slot, attempt.reg.tick)

/-- A trigger whose slot and tick fit its id. -/
def Fits (trig : TriggerEvent) : Prop := trig.slot < 2 ^ 56 ∧ trig.tick ≤ 255

instance : DecidablePred Fits := fun _ => inferInstanceAs (Decidable (_ ∧ _))

/-- **Attempts with the same memo are of the same sender, slot and tick.** -/
theorem point_eq_of_memo_eq (cfg : Dispatcher.Config) {inputs : List Input}
    (packed : ∀ trig ∈ dispatched inputs, TriggerEngine.Packed trig)
    (fits : ∀ trig ∈ dispatched inputs, Fits trig) {first second : Attempt}
    (member : first ∈ attempts cfg inputs) (member' : second ∈ attempts cfg inputs)
    (same : first.memo = second.memo) : first.point = second.point := by
  obtain ⟨coherent, trig, listed, slot, tick⟩ := memo_run cfg packed first member
  obtain ⟨coherent', trig', listed', slot', tick'⟩ := memo_run cfg packed second member'
  obtain ⟨fitsSlot, byte⟩ := fits trig listed
  obtain ⟨fitsSlot', byte'⟩ := fits trig' listed'
  rw [coherent.memo, coherent'.memo, coherent.packed, coherent'.packed, slot, tick, slot',
    tick'] at same
  have equal := @memo_injective (first.reg.senderId, ⟨_, _, fitsSlot, byte⟩)
    (second.reg.senderId, ⟨_, _, fitsSlot', byte'⟩) same
  simpa [Attempt.point, slot, tick, slot', tick'] using equal

/-- The senders an input builds transactions for. -/
def Input.senders : Input → List UInt8
  | .insert _ signed => signed.map Prod.fst
  | .dispatch _ (some (_, signed)) => signed.map Prod.fst
  | .dispatch _ none | .evict _ => []

/-- The transactions that are built together go to different senders. -/
def DistinctSenders (inputs : List Input) : Prop := ∀ input ∈ inputs, input.senders.Nodup

instance : DecidablePred DistinctSenders := fun inputs =>
  inferInstanceAs (Decidable (∀ input ∈ inputs, input.senders.Nodup))

/-- The senders of transactions. -/
def sendersOf (txs : List BuiltTx) : List UInt8 := txs.map fun tx => tx.presigned.senderId

def PoolDistinct (pool : Pool) : Prop :=
  ∀ key txs, pool.get key = some txs → (sendersOf txs).Nodup

theorem poolDistinct_step (cfg : Dispatcher.Config) {pool : Pool} (distinct : PoolDistinct pool)
    {input : Input} (own : input.senders.Nodup) : PoolDistinct (step cfg pool input).1 := by
  intro key txs found
  cases input with
  | insert signing signed =>
    rw [step, HashTable.get_insert] at found
    split at found
    · cases found
      rw [sendersOf, List.map_map]
      exact own
    · exact distinct key txs found
  | evict cutoffSlot =>
    rw [step, HashTable.get_retain, Option.filter_eq_some_iff] at found
    exact distinct key txs found.1
  | dispatch trig fallback => exact distinct key txs (HashTable.get_of_get_remove found)

theorem variants_distinct {pool : Pool} (distinct : PoolDistinct pool) {trig : TriggerEvent}
    {fallback : Option (Hash × List (UInt8 × Signature × Instant))}
    (own : (Input.dispatch trig fallback).senders.Nodup) :
    (sendersOf (variants pool trig fallback)).Nodup := by
  unfold variants
  split
  · next txs found => exact distinct _ txs found
  · split
    · rw [sendersOf, List.map_map]
      exact own
    · exact List.nodup_nil

/-- The attempts of one trigger are of some of its transactions' senders. -/
theorem attemptSenders_sublist (cfg : Dispatcher.Config) (trig : TriggerEvent)
    (txs : List BuiltTx) :
    ((txs.filterMap (attemptOf cfg trig)).map fun attempt => attempt.reg.senderId).Sublist
      (sendersOf txs) := by
  induction txs with
  | nil => exact List.Sublist.refl []
  | cons tx rest ih =>
    cases found : attemptOf cfg trig tx with
    | none =>
      rw [List.filterMap_cons_none found]
      exact ih.cons _
    | some attempt =>
      rw [List.filterMap_cons_some found, List.map_cons, (attemptOf_eq_some found).2.1]
      exact ih.cons_cons _

/-- The pool keeps different senders in every run. -/
theorem poolDistinct_run (cfg : Dispatcher.Config) {inputs : List Input}
    (distinct : DistinctSenders inputs) : PoolDistinct (runAll (step cfg) .empty inputs).1 := by
  have blank : PoolDistinct .empty := by
    intro key txs found
    rw [HashTable.get_empty] at found
    cases found
  refine (@runAll_outputs _ _ _ (step cfg) PoolDistinct (fun _ => True) inputs ?_ _ blank).1
  exact fun pool holds input member =>
    ⟨poolDistinct_step cfg holds (distinct input member), fun _ _ => trivial⟩

/-- The attempts of one input are of different senders, slots or ticks. -/
theorem points_step (cfg : Dispatcher.Config) {pool : Pool} (distinct : PoolDistinct pool)
    {input : Input} (own : input.senders.Nodup) :
    ((step cfg pool input).2.map Attempt.point).Nodup := by
  cases input with
  | insert | evict => exact List.nodup_nil
  | dispatch trig fallback =>
    have senders := (variants_distinct distinct own).sublist
      (attemptSenders_sublist cfg trig (variants pool trig fallback))
    refine List.Nodup.of_map Prod.fst ?_
    rw [List.map_map]
    exact senders

/-- **When no slot and tick is dispatched twice, no attempt of a run has the sender, slot
and tick of another.** -/
theorem points_nodup (cfg : Dispatcher.Config) {inputs : List Input}
    (packed : ∀ trig ∈ dispatched inputs, TriggerEngine.Packed trig)
    (once : ((dispatched inputs).map fun trig => (trig.slot, trig.tick)).Nodup)
    (distinct : DistinctSenders inputs) : ((attempts cfg inputs).map Attempt.point).Nodup := by
  induction inputs using List.reverseRecOn with
  | nil => exact List.nodup_nil
  | append_singleton past input ih =>
    have earlier : ∀ trig ∈ dispatched past, TriggerEngine.Packed trig := by
      intro trig member
      refine packed trig ?_
      rw [dispatched, List.filterMap_append]
      exact List.mem_append_left _ member
    have split : dispatched (past ++ [input]) = dispatched past ++ dispatched [input] :=
      List.filterMap_append
    rw [split, List.map_append, List.nodup_append] at once
    have distinctPast : DistinctSenders past := fun other member =>
      distinct other (List.mem_append_left _ member)
    have own : input.senders.Nodup := distinct input (by simp)
    have old := ih earlier once.1 distinctPast
    have new := points_step cfg (poolDistinct_run cfg distinctPast) own
    rw [attempts, runAll_concat, List.map_append, List.nodup_append]
    refine ⟨old, new, ?_⟩
    -- An attempt of the last input has its slot and tick, which no earlier attempt has.
    rintro point member point' member' rfl
    obtain ⟨first, listed, rfl⟩ := List.mem_map.mp member
    obtain ⟨second, registered, same⟩ := List.mem_map.mp member'
    obtain ⟨_, trig, fired, slot, tick⟩ := memo_run cfg earlier first listed
    cases input with
    | insert | evict => cases registered
    | dispatch last fallback =>
      obtain ⟨tx, _, found⟩ := List.mem_filterMap.mp registered
      obtain ⟨_, _, slot', tick', _⟩ := attemptOf_eq_some found
      simp only [Attempt.point, Prod.mk.injEq] at same
      refine once.2.2 (trig.slot, trig.tick) (List.mem_map_of_mem fired)
        (last.slot, last.tick) (by simp [dispatched, Input.trigger?]) ?_
      rw [← slot, ← tick, ← slot', ← tick', same.2.1, same.2.2]

/-! ## Runs behind the engine -/

/-- The engine fires no slot and tick twice while it remembers what it fired. -/
theorem triggers_nodup {start : TriggerEngine.State} (blank : start.fired = ∅)
    {events : List TriggerEngine.Input} (inWindow : TriggerEngine.InWindow events) :
    ((TriggerEngine.triggersOf (TriggerEngine.run start events).2).map fun trig =>
      (trig.slot, trig.tick)).Nodup := by
  rw [List.nodup_iff_count_le_one]
  rintro ⟨slot, tick⟩
  have fired := TriggerEngine.firings_run blank inWindow slot tick
  have counted : List.count (slot, tick)
      ((TriggerEngine.triggersOf (TriggerEngine.run start events).2).map fun trig =>
        (trig.slot, trig.tick)) =
      TriggerEngine.firings slot tick (TriggerEngine.run start events).2 := by
    rw [List.count, List.countP_map, TriggerEngine.firings]
    rfl
  rw [counted, fired]
  split <;> omega

section Engine

variable (cfg : Dispatcher.Config) {start : TriggerEngine.State}
  {events : List TriggerEngine.Input} {inputs : List Input}

/-- What the dispatcher takes was fired. -/
theorem packed_dispatched
    (fired : (dispatched inputs).Sublist
      (TriggerEngine.triggersOf (TriggerEngine.run start events).2)) :
    ∀ trig ∈ dispatched inputs, TriggerEngine.Packed trig := fun trig member =>
  TriggerEngine.packed_run start events trig (fired.subset member)

/-- Attempts share a memo exactly when the recorder keeps them under the same key. -/
theorem memo_eq_iff
    (fired : (dispatched inputs).Sublist
      (TriggerEngine.triggersOf (TriggerEngine.run start events).2))
    (fits : ∀ trig ∈ dispatched inputs, Fits trig) {first second : Attempt}
    (member : first ∈ attempts cfg inputs) (member' : second ∈ attempts cfg inputs) :
    first.memo = second.memo ↔ Recorder.keyOf first.reg = Recorder.keyOf second.reg := by
  have packed := packed_dispatched fired
  have coherent := (memo_run cfg packed first member).1
  have coherent' := (memo_run cfg packed second member').1
  simp only [Recorder.keyOf, Prod.mk.injEq]
  constructor
  · intro same
    have point := point_eq_of_memo_eq cfg packed fits member member' same
    simp only [Attempt.point, Prod.mk.injEq] at point
    rw [coherent.packed, coherent'.packed, point.2.1, point.2.2]
    exact ⟨rfl, point.1⟩
  · rintro ⟨trigger, sender⟩
    rw [coherent.memo, coherent'.memo, trigger, sender]

/-- Attempts of different senders, slots or ticks have different memos. -/
theorem memos_nodup
    (fired : (dispatched inputs).Sublist
      (TriggerEngine.triggersOf (TriggerEngine.run start events).2))
    (fits : ∀ trig ∈ dispatched inputs, Fits trig) (blank : start.fired = ∅)
    (inWindow : TriggerEngine.InWindow events) (distinct : DistinctSenders inputs) :
    ((attempts cfg inputs).map Attempt.memo).Nodup := by
  have packed := packed_dispatched fired
  have once := (triggers_nodup blank inWindow).sublist (fired.map _)
  have points := points_nodup cfg packed once distinct
  rw [List.Nodup, List.pairwise_map] at points ⊢
  exact points.imp_of_mem fun member member' apart same =>
    apart (point_eq_of_memo_eq cfg packed fits member member' same)

end Engine

/-- **A memo is 19 bytes of ASCII from which the sender, the slot and the tick are read
back, and the trigger id alone determines the slot and the tick. In a run whose triggers
the engine fired, attempts share a memo exactly when the recorder has one key for them.
While the engine remembers what it fired and transactions that are built together go to
different senders, no two attempts share a memo.** -/
theorem memos_identify :
    (∀ (senderId : UInt8) (point : SlotTick),
      (memoPayload senderId point.triggerId.value).toUTF8.size = 19 ∧
      (∀ byte ∈ (memoPayload senderId point.triggerId.value).toUTF8.data, byte ≤ 127) ∧
      (readMemo (memoPayload senderId point.triggerId.value)).map
        (fun read => (read.1, read.2.slotTick)) = some (senderId, point.slot, point.tick)) ∧
    (Function.Injective fun attempt : UInt8 × SlotTick =>
      memoPayload attempt.1 attempt.2.triggerId.value) ∧
    Function.Injective SlotTick.triggerId ∧
    ∀ (cfg : Dispatcher.Config) (start : TriggerEngine.State) (events : List TriggerEngine.Input)
      (inputs : List Input),
      (dispatched inputs).Sublist
        (TriggerEngine.triggersOf (TriggerEngine.run start events).2) →
      (∀ trig ∈ dispatched inputs, Fits trig) →
        (∀ first ∈ attempts cfg inputs, ∀ second ∈ attempts cfg inputs,
          first.memo = second.memo ↔ Recorder.keyOf first.reg = Recorder.keyOf second.reg) ∧
        (start.fired = ∅ → TriggerEngine.InWindow events → DistinctSenders inputs →
          ((attempts cfg inputs).map Attempt.memo).Nodup) := by
  refine ⟨?_, memo_injective, SlotTick.triggerId_injective, ?_⟩
  · intro senderId point
    obtain ⟨size, ascii⟩ := bytes_memoPayload senderId point.triggerId_lt
    refine ⟨size, ascii, ?_⟩
    rw [readMemo_memoPayload senderId point.triggerId_lt, Option.map_some]
    exact congrArg (fun pair => some (senderId, pair))
      (TriggerId.slotTick_fromSlotTick point.fits point.byte)
  · intro cfg start events inputs fired fits
    exact ⟨fun first member second member' => memo_eq_iff cfg fired fits member member',
      memos_nodup cfg fired fits⟩

/-- Two senders. -/
def sampleCfg : Dispatcher.Config where
  sendersCfg := [⟨3, "nozomi"⟩, ⟨10, "astralane"⟩]
  sendersById := (HashTable.empty.insert 3 ⟨"a", "http"⟩).insert 10 ⟨"b", "http"⟩

/-- Their transactions for a tick are put into the pool and dispatched. -/
def sampleInputs : List Input :=
  [.insert ⟨⟨200, 5⟩, Samples.hash 1, none, 0⟩
      [(10, Samples.signature 1), (3, Samples.signature 2)],
    .dispatch ⟨.fromSlotTick 200 5, 200, 5, 1, false⟩ none]

/-- The engine fires the tick. -/
def sampleEvents : List TriggerEngine.Input :=
  [.receive (TriggerEngine.sampleEntry 200 5) {(200, 5)} 1]

theorem sampleEvents_inWindow : TriggerEngine.InWindow sampleEvents := by
  change EachAfter _ ([] ++ [_])
  rw [eachAfter_concat]
  refine ⟨eachAfter_nil _, ?_⟩
  rintro entry ⟨⟩
  decide

/-- The two attempts have two memos. -/
theorem memos_identify_two :
    (attempts sampleCfg sampleInputs).map Attempt.memo =
        ["0a:000000000000c805", "03:000000000000c805"] ∧
      ((attempts sampleCfg sampleInputs).map Attempt.memo).Nodup := by
  refine ⟨by decide +kernel, ?_⟩
  exact (memos_identify.2.2.2 sampleCfg {} sampleEvents sampleInputs (by decide +kernel)
    (by decide)).2 rfl sampleEvents_inWindow (by decide)

/-- No two attempts share a memo in a run whose triggers the engine fired. -/
def NeverShared (cfg : Dispatcher.Config) (events : List TriggerEngine.Input)
    (inputs : List Input) : Prop :=
  (dispatched inputs).Sublist (TriggerEngine.triggersOf (TriggerEngine.run {} events).2) →
    (∀ trig ∈ dispatched inputs, Fits trig) →
      ((attempts cfg inputs).map Attempt.memo).Nodup

/-- A slot far ahead makes the engine forget the tick, and a late entry carries it again. -/
def forgottenEvents : List TriggerEngine.Input :=
  [.receive (TriggerEngine.sampleEntry 200 5) {(200, 5)} 1,
    .receive (TriggerEngine.sampleEntry 500 1) {(200, 5)} 2,
    .receive (TriggerEngine.sampleEntry 200 5) {(200, 5)} 3]

/-- Both triggers find the pool empty, and the dispatcher builds the transactions. -/
def refiredInputs : List Input :=
  [.dispatch ⟨.fromSlotTick 200 5, 200, 5, 1, false⟩
      (some (Samples.hash 1, [(3, Samples.signature 1, 1), (10, Samples.signature 2, 1)])),
    .dispatch ⟨.fromSlotTick 200 5, 200, 5, 3, false⟩
      (some (Samples.hash 2, [(3, Samples.signature 3, 3), (10, Samples.signature 4, 3)]))]

/-- Two senders with one id. -/
def pairedCfg : Dispatcher.Config where
  sendersCfg := [⟨3, "nozomi"⟩, ⟨3, "astralane"⟩]
  sendersById := (HashTable.empty.insert 3 ⟨"a", "http"⟩).insert 3 ⟨"b", "http"⟩

/-- Their transactions for a tick. -/
def pairedInputs : List Input :=
  [.insert ⟨⟨200, 5⟩, Samples.hash 1, none, 0⟩
      [(3, Samples.signature 1), (3, Samples.signature 2)],
    .dispatch ⟨.fromSlotTick 200 5, 200, 5, 1, false⟩ none]

/-- **Attempts share a memo when their tick is fired again after the engine forgot it, and
when their senders have one id.** -/
theorem memos_repeat :
    (DistinctSenders refiredInputs ∧ ¬ NeverShared sampleCfg forgottenEvents refiredInputs) ∧
      TriggerEngine.InWindow sampleEvents ∧ ¬ NeverShared pairedCfg sampleEvents pairedInputs := by
  refine ⟨⟨by decide, ?_⟩, sampleEvents_inWindow, ?_⟩
  · intro never
    exact absurd (never (by decide +kernel) (by decide)) (by decide +kernel)
  · intro never
    exact absurd (never (by decide +kernel) (by decide)) (by decide +kernel)

end SenderAnalysis.AttemptMemos

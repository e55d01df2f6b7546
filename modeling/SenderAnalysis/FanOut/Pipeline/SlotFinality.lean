import SenderAnalysis.FanOut.Nonce.SlotHashes
import SenderAnalysis.FanOut.PohSupervisor.Lifecycle
import SenderAnalysis.FanOut.PohSupervisor.OrderedEmission
import SenderAnalysis.FanOut.Pipeline.ScheduledTicks
import SenderAnalysis.FanOut.PohSupervisor.SlotOrder
import SenderAnalysis.FanOut.Samples

/-!
# When the hash of a slot is final

The engine records the hash of every entry in the cache, and the recorder computes the
next value of a nonce from it as soon as a signature is seen to land, without waiting
for the slot to be ended. That is right when the hash recorded for an earlier slot is
already the one the slot will end with, and so it rests on the entries coming in slot
order.

An incarnation of a slot ends with the hash of its last entry. So where the entries come
in slot order and no slot is created anew, whatever the cache holds for a slot once an
entry of a later slot was handled is the hash the slot ends with.
-/

set_option autoImplicit false

namespace SenderAnalysis

open PohSupervisor

/-! ## The cache of the engine -/

namespace TriggerEngine

/-- What the engine does to the cache when it handles an event. -/
def cacheCall? : OrderedEvent → Option SlotHashCache.Call
  | .entry e => some (.recordEntry e.slot e.observation.entryHash)
  | .slotComplete c => some (.recordSlotComplete c.slot c.lastEntryHash)
  | .slotIncomplete i => some (.recordSlotComplete i.slot i.lastEntryHash)
  | .missing _ => none

theorem handleEntry_cache (engine : State) (schedule : Finset (Nat × Nat)) (entry : OrderedEntry)
    (now : Instant) :
    (handleEntry engine schedule entry now).1.nonceSlotHashCache =
      engine.nonceSlotHashCache.map fun cache =>
        cache.recordEntry entry.slot entry.observation.entryHash := by
  have checked : (scheduleCheck (recordEntryHash engine entry.slot entry.observation.entryHash)
      schedule entry now).1.nonceSlotHashCache =
      (recordEntryHash engine entry.slot entry.observation.entryHash).nonceSlotHashCache := by
    unfold scheduleCheck
    dsimp only
    split
    · split <;> rfl
    · rfl
  have compacted : ∀ state : State, (compact state entry.slot).nonceSlotHashCache =
      state.nonceSlotHashCache := by
    intro state
    unfold compact
    split <;> rfl
  rw [handleEntry]
  dsimp only
  rw [compacted, (matching_frame _ entry now _).2.2.1, checked]
  rfl

theorem step_cache (engine : State) (input : Input) :
    (step engine input).1.nonceSlotHashCache =
      engine.nonceSlotHashCache.map fun cache =>
        (input.event?.bind cacheCall?).toList.foldl SlotHashCache.Call.run cache := by
  cases input with
  | insertPending signature => simp [step, Input.event?]
  | receive event schedule now =>
    cases event with
    | entry e => exact handleEntry_cache engine schedule e now
    | missing m => simp [step, handle, Input.event?, cacheCall?]
    | slotComplete c => rfl
    | slotIncomplete i => rfl

/-- **The cache is what the events the engine handled leave.** -/
theorem run_cache (start : State) (handled : List Input) :
    (run start handled).1.nonceSlotHashCache =
      start.nonceSlotHashCache.map fun cache =>
        ((handled.filterMap Input.event?).filterMap cacheCall?).foldl
          SlotHashCache.Call.run cache := by
  induction handled using List.reverseRecOn with
  | nil => simp [run]
  | append_singleton past input ih =>
    rw [run] at ih ⊢
    rw [runAll_concat, step_cache, ih, Option.map_map]
    congr 1
    funext cache
    cases found : input.event? with
    | none => simp [found]
    | some event =>
      cases called : cacheCall? event <;>
        simp [found, called, List.filterMap_append]

end TriggerEngine

/-! ## The hash an incarnation ends with -/

namespace PohSupervisor

/-- A slot keeps the hash of its last entry, and its terminal events report it. -/
def ReportsLastHash (slot : PohSlot) (events : List OrderedEvent) : Prop :=
  slot.lastEntryHash = lastEmittedHash events ∧
    ∀ event ∈ events, event.isTerminal = true →
      event.lastEntryHash? = some ((lastEmittedHash events).getD Hash.default)

theorem lastEmittedHash_concat_entry (events : List OrderedEvent) (e : OrderedEntry) :
    lastEmittedHash (events ++ [.entry e]) = some e.observation.entryHash := by
  simp [lastEmittedHash, emittedEntries, OrderedEvent.ordered?]

theorem lastEmittedHash_concat_other {events : List OrderedEvent} {event : OrderedEvent}
    (other : event.ordered? = none) :
    lastEmittedHash (events ++ [event]) = lastEmittedHash events := by
  simp [lastEmittedHash, emittedEntries, other]

/-- An entry of an open slot becomes the last one. -/
theorem ReportsLastHash.entry {next : PohSlot} {events : List OrderedEvent}
    (unended : Unended events) {e : OrderedEntry}
    (hash : next.lastEntryHash = some e.observation.entryHash) :
    ReportsLastHash next (events ++ [.entry e]) := by
  rw [ReportsLastHash, lastEmittedHash_concat_entry]
  refine ⟨hash, fun event member terminal => ?_⟩
  rcases List.mem_append.mp member with old | new
  · exact absurd terminal (by simpa using List.countP_eq_zero.mp unended event old)
  · rw [List.mem_singleton.mp new] at terminal
    cases terminal

/-- An event that is no entry leaves the last one, and reports its hash if it is terminal. -/
theorem ReportsLastHash.other {slot next : PohSlot} {events : List OrderedEvent}
    (reports : ReportsLastHash slot events) {event : OrderedEvent}
    (silent : event.ordered? = none) (same : next.lastEntryHash = slot.lastEntryHash)
    (reported : event.isTerminal = true →
      event.lastEntryHash? = some (slot.lastEntryHash.getD Hash.default)) :
    ReportsLastHash next (events ++ [event]) := by
  rw [ReportsLastHash, lastEmittedHash_concat_other silent]
  refine ⟨same.trans reports.1, fun listed member terminal => ?_⟩
  rcases List.mem_append.mp member with old | new
  · exact reports.2 listed old terminal
  · rw [List.mem_singleton.mp new] at terminal ⊢
    rw [reported terminal, reports.1]

theorem Move.reportsLastHash {cfg : Config} {slotKey : Nat} {slot : PohSlot}
    {label : Option SlotInput} {result : PohSlot × List SupervisorEffect}
    {events : List OrderedEvent} (move : Move cfg slotKey slot label result)
    (ended : EndsWithSeal slot events) (reports : ReportsLastHash slot events) :
    ReportsLastHash result.1 (events ++ sent result.2) := by
  cases move with
  | afterSeal | advance | sealing => simpa using reports
  | refuse | late | buffer =>
    simp only [sent_fetchAdd, sent_fetchMax, sent_nil, List.append_nil]
    exact reports
  | emit merged now opened here =>
    have unended : Unended events := by simpa [EndsWithSeal, opened] using ended
    have event : sent (emitAtCursor slot merged now).2 =
        [entryEvent (slot.noted now) merged false 0] := sent_emitEntry _ _ _ _ _
    rw [event]
    exact .entry unended rfl
  | pop now entry opened found =>
    have unended : Unended events := by simpa [EndsWithSeal, opened] using ended
    rw [sent_emitPending]
    exact .entry unended rfl
  | skip now first entry opened found gap =>
    obtain ⟨waited, event⟩ := sent_emitMissing cfg slotKey slot now
    rw [event]
    exact reports.other rfl (emitMissing_lastEntryHash ..) fun terminal => by cases terminal
  | close now opened emptied =>
    rw [sent_closingEffects]
    exact reports.other (terminalEvent_ordered? slotKey slot) rfl
      fun _ => terminalEvent_lastEntryHash? slotKey slot

/-- **An incarnation ends with the hash of its last entry.** -/
theorem slotRun_reportsLastHash (cfg : Config) (slotKey : Nat) (own : List SlotInput) :
    ReportsLastHash (slotRun cfg slotKey own).1 (incarnationEvents cfg slotKey own) := by
  have both := @slotRun_induction cfg slotKey
    (fun _ slot effects => EndsWithSeal slot (sent effects) ∧ ReportsLastHash slot (sent effects))
    ⟨rfl, rfl, by simp⟩ ?_ own
  · exact both.2
  · rintro past slot effects label result ⟨ended, reports⟩ _ _ move
    rw [sent_append]
    exact ⟨move.endsWithSeal ended, move.reportsLastHash ended reports⟩

/-- A slot that is never created anew ends with the hash of its last entry. -/
theorem reported_of_neverRecreated {cfg : Config} {slotKey : Nat} {inputs : List Input}
    (never : NeverRecreated cfg slotKey inputs) :
    ∀ event ∈ eventsAt slotKey (run cfg inputs).2, event.isTerminal = true →
      event.lastEntryHash? =
        some ((lastEmittedHash (eventsAt slotKey (run cfg inputs).2)).getD Hash.default) := by
  have few := (length_le_one_iff cfg slotKey inputs).mpr never
  rw [(tracked_run cfg slotKey inputs).emitted]
  unfold incarnations at few
  cases alone : (history cfg slotKey inputs).incarnations with
  | nil => simp
  | cons own rest =>
    obtain rfl : rest = [] := by simpa [alone] using few
    rw [List.flatMap_singleton]
    exact (slotRun_reportsLastHash cfg slotKey own).2

/-! ## What was recorded when a later slot came -/

/-- What the events record in the cache. -/
def recordedHashes (events : List OrderedEvent) : List (Nat × Hash) :=
  (events.filterMap TriggerEngine.cacheCall?).map SlotHashCache.Call.write

theorem recordedHashes_append (first second : List OrderedEvent) :
    recordedHashes (first ++ second) = recordedHashes first ++ recordedHashes second := by
  simp [recordedHashes]

/-- An event records under its own slot. -/
theorem recordedHashes_single (event : OrderedEvent) :
    (recordedHashes [event] = [] ∧ event.ordered? = none) ∨
      ∃ hash, recordedHashes [event] = [(event.slot, hash)] ∧
        (event.isTerminal = true ∧ event.lastEntryHash? = some hash ∨
          ∃ e, event = .entry e ∧ e.observation.entryHash = hash) := by
  cases event with
  | entry e => exact .inr ⟨_, rfl, .inr ⟨e, rfl, rfl⟩⟩
  | missing m => exact .inl ⟨rfl, rfl⟩
  | slotComplete c => exact .inr ⟨_, rfl, .inl ⟨rfl, rfl⟩⟩
  | slotIncomplete i => exact .inr ⟨_, rfl, .inl ⟨rfl, rfl⟩⟩

/-- What the events recorded last for a slot is the hash of one of its terminal events, or
of the last of its entries. -/
theorem recorded_cases {slotKey : Nat} {hash : Hash} {events : List OrderedEvent}
    (written : lastWrite (recordedHashes events) slotKey = some hash) :
    (∃ event ∈ events, event.slot = slotKey ∧ event.isTerminal = true ∧
        event.lastEntryHash? = some hash) ∨
      lastEmittedHash (events.filter fun event => event.slot == slotKey) = some hash := by
  induction events using List.reverseRecOn with
  | nil => cases written
  | append_singleton past event ih =>
    rw [recordedHashes_append] at written
    rw [List.filter_append]
    have earlier : lastWrite (recordedHashes past) slotKey = some hash →
        lastEmittedHash (past.filter (fun event => event.slot == slotKey) ++
            [event].filter fun event => event.slot == slotKey) =
          lastEmittedHash (past.filter fun event => event.slot == slotKey) →
        (∃ event' ∈ past ++ [event], event'.slot = slotKey ∧ event'.isTerminal = true ∧
            event'.lastEntryHash? = some hash) ∨
          lastEmittedHash (past.filter (fun event => event.slot == slotKey) ++
            [event].filter fun event => event.slot == slotKey) = some hash := by
      intro before same
      rw [same]
      exact (ih before).imp_left fun ⟨other, member, rest⟩ =>
        ⟨other, List.mem_append_left _ member, rest⟩
    by_cases own : event.slot = slotKey
    · have kept : [event].filter (fun event => event.slot == slotKey) = [event] := by simp [own]
      rw [kept] at earlier ⊢
      rcases recordedHashes_single event with ⟨none, other⟩ | ⟨last, single, from'⟩
      · rw [none, List.append_nil] at written
        exact earlier written (lastEmittedHash_concat_other other)
      · rw [single, lastWrite_concat, if_pos own, Option.some.injEq] at written
        subst written
        rcases from' with ⟨terminal, reported⟩ | ⟨e, rfl, rfl⟩
        · exact .inl ⟨event, by simp, own, terminal, reported⟩
        · exact .inr (lastEmittedHash_concat_entry _ e)
    · have skipped : [event].filter (fun event => event.slot == slotKey) = [] := by simp [own]
      rw [skipped, List.append_nil] at earlier ⊢
      refine earlier ?_ rfl
      rcases recordedHashes_single event with ⟨none, _⟩ | ⟨last, single, _⟩
      · rwa [none, List.append_nil] at written
      · rwa [single, lastWrite_concat, if_neg own] at written

/-- Every terminal event of the slot reports the hash. -/
def FinalHash (events : List OrderedEvent) (slotKey : Nat) (hash : Hash) : Prop :=
  ∀ event ∈ events, event.slot = slotKey → event.isTerminal = true →
    event.lastEntryHash? = some hash

instance (events : List OrderedEvent) (slotKey : Nat) (hash : Hash) :
    Decidable (FinalHash events slotKey hash) :=
  inferInstanceAs (Decidable (∀ event ∈ events, _ → _ → _))

/-- **Where entries come in slot order and the slot is not created anew, what is recorded
for it when an entry of a later slot has come is final.** -/
theorem finalHash_of_recorded {cfg : Config} {inputs : List Input} {slotKey : Nat}
    (ordered : SlotsInOrder (events cfg inputs)) (never : NeverRecreated cfg slotKey inputs)
    {before rest : List OrderedEvent} (split : events cfg inputs = before ++ rest)
    {e : OrderedEntry} (later : .entry e ∈ before) (below : slotKey < e.slot) {hash : Hash}
    (written : lastWrite (recordedHashes before) slotKey = some hash) :
    FinalHash (events cfg inputs) slotKey hash := by
  have reported := reported_of_neverRecreated never
  have own : eventsAt slotKey (run cfg inputs).2 =
      before.filter (fun event => event.slot == slotKey) ++
        rest.filter fun event => event.slot == slotKey := by
    rw [← List.filter_append, ← split]
    rfl
  -- no entry of the slot is left to come
  have silent : emittedEntries (rest.filter fun event => event.slot == slotKey) = [] := by
    refine List.filterMap_eq_nil_iff.mpr fun event member => ?_
    obtain ⟨listed, same⟩ := List.mem_filter.mp member
    cases event with
    | missing | slotComplete | slotIncomplete => rfl
    | entry other =>
      obtain ⟨front, back, place⟩ := List.append_of_mem listed
      have order := ordered (before ++ front) (.entry other) back (by simp [split, place]) other rfl
        e (List.mem_append_left _ later)
      have here : other.slot = slotKey := by simpa [OrderedEvent.slot] using same
      omega
  have last : lastEmittedHash (eventsAt slotKey (run cfg inputs).2) =
      lastEmittedHash (before.filter fun event => event.slot == slotKey) := by
    rw [own, lastEmittedHash, emittedEntries_append, silent, List.append_nil]
    rfl
  rw [last] at reported
  have each : ∀ event ∈ events cfg inputs, event.slot = slotKey → event.isTerminal = true →
      event.lastEntryHash? = some ((lastEmittedHash
        (before.filter fun event => event.slot == slotKey)).getD Hash.default) :=
    fun event member same terminal =>
      reported event (List.mem_filter.mpr ⟨member, by simp [same]⟩) terminal
  intro event member same terminal
  rcases recorded_cases written with ⟨other, listed, ofSlot, ended, found⟩ | final
  · have there := each other (by simp [split, listed]) ofSlot ended
    rw [each event member same terminal, ← there, found]
  · rw [each event member same terminal, final, Option.getD_some]

end PohSupervisor

/-! ## The nonces of a run -/

/-- **Cross-slot finality.** In every run whose inputs keep the slot order and create no
slot anew, the entries come in slot order. So whatever part of the events the engine has
handled, the hash the cache holds for a slot below one of the entries handled is the hash
the slot ends with, and the next nonce for a landing in the slot of such an entry is
computed from a hash that is final. -/
theorem crossSlotFinality (cfg : Config) (inputs : List Input)
    (keeps : EachAfter (KeepsSlotOrder cfg) inputs)
    (never : ∀ slotKey, NeverRecreated cfg slotKey inputs) :
    SlotsInOrder (events cfg inputs) ∧
    ∀ (start : TriggerEngine.State) (window : Nat) (handled : List TriggerEngine.Input)
      (rest : List OrderedEvent) (cache : SlotHashCache),
      start.nonceSlotHashCache = some (.new window) →
      events cfg inputs = handled.filterMap TriggerEngine.Input.event? ++ rest →
      (TriggerEngine.run start handled).1.nonceSlotHashCache = some cache →
      ∀ e, .entry e ∈ handled.filterMap TriggerEngine.Input.event? →
        (∀ slotKey hash, slotKey < e.slot → cache.inner[slotKey]? = some hash →
          FinalHash (events cfg inputs) slotKey hash) ∧
        ∀ hashv maxLookback slotKey hash next,
          cache.nextNonceForLandedSlot hashv e.slot maxLookback = some (slotKey, hash, next) →
            next = computeNextDurableNonce hashv hash ∧
              FinalHash (events cfg inputs) slotKey hash := by
  have ordered := (slotsInOrder_iff cfg inputs).mpr keeps
  refine ⟨ordered, fun start window handled rest cache begun split found e later => ?_⟩
  have same : cache = SlotHashCache.after window
      ((handled.filterMap TriggerEngine.Input.event?).filterMap TriggerEngine.cacheCall?) := by
    rw [TriggerEngine.run_cache, begun, Option.map_some, Option.some.injEq] at found
    exact found.symm
  have final : ∀ slotKey hash, slotKey < e.slot → cache.inner[slotKey]? = some hash →
      FinalHash (events cfg inputs) slotKey hash := by
    intro slotKey hash below cached
    rw [same, SlotHashCache.after_getElem?, SlotHashCache.windowed] at cached
    split at cached
    · exact finalHash_of_recorded ordered (never slotKey) split later below cached
    · cases cached
  refine ⟨final, fun hashv maxLookback slotKey hash next computed => ?_⟩
  obtain ⟨cached, derived, below, _⟩ := (SlotHashCache.nextNonce_eq_some_iff ..).mp computed
  exact ⟨derived, final slotKey hash below cached⟩

/-! ## A slot that is overtaken -/

open Samples in
/-- The first entry of slot 101 comes before the second of slot 100. -/
def overtakenInputs : List Input :=
  [.receive (merged 100 0 10 0 1) 1, .receive (merged 101 0 10 0 2) 2,
    .receive (merged 100 1 10 0 3) 3, .shutdown 4]

/-- The engine's cache after the first events of a run. -/
def cacheAfter (count : Nat) (inputs : List Input) : Option SlotHashCache :=
  (TriggerEngine.run { nonceSlotHashCache := some (.new 512) }
    (handling ∅ ((events (Samples.cfgWith 50) inputs).take count))).1.nonceSlotHashCache

/-- An entry of slot 100 comes after one of slot 101. When the latter is handled, the cache
holds the hash of the first entry of slot 100, which does not end with it. -/
theorem overtakenSlot_notFinal :
    ¬ SlotsInOrder (events (Samples.cfgWith 50) overtakenInputs) ∧
    (cacheAfter 2 overtakenInputs).bind (fun cache => cache.inner[100]?) = some (Samples.hash 1) ∧
    ¬ FinalHash (events (Samples.cfgWith 50) overtakenInputs) 100 (Samples.hash 1) := by
  refine ⟨fun ordered => ?_, by decide +kernel, by decide +kernel⟩
  exact absurd (slotsInOrder_iff_pairwise.mp ordered) (by decide +kernel)

open Samples in
/-- The second entry of slot 100 comes before the first. Then slot 101 begins, the gap in it is
opened by a sweep, and what comes last is left to the shutdown. -/
def orderedSlots : List Input :=
  [.receive (merged 100 1 10 0 2) 1, .receive (merged 100 0 10 0 1) 2,
    .receive (merged 101 0 10 0 3) 3, .receive (merged 101 2 10 0 4) 4, .sweep 60,
    .receive (merged 101 4 10 0 5) 61, .shutdown 62]

theorem orderedSlots_keeps :
    EachAfter (KeepsSlotOrder (Samples.cfgWith 50)) orderedSlots := by decide +kernel

theorem orderedSlots_neverRecreated (slotKey : Nat) :
    NeverRecreated (Samples.cfgWith 50) slotKey orderedSlots := by
  by_cases known : slotKey = 100 ∨ slotKey = 101
  · rcases known with rfl | rfl <;> unfold NeverRecreated <;> decide +kernel
  · have slots : ∀ input ∈ orderedSlots, ∀ merged now, input = .receive merged now →
        merged.observation.slot = 100 ∨ merged.observation.slot = 101 := by
      simp [orderedSlots, Samples.merged, Samples.obs]
    intro past input after split own
    cases input with
    | receive merged now =>
      have either := slots (.receive merged now) (split ▸ by simp) merged now rfl
      by_cases here : merged.observation.slot = slotKey
      · exact absurd (here ▸ either) known
      · simp [Input.arrivalAt?, here] at own
    | sweep _ | shutdown _ => cases own

theorem crossSlotFinality_orderedSlots :
    SlotsInOrder (events (Samples.cfgWith 50) orderedSlots) ∧
      FinalHash (events (Samples.cfgWith 50) orderedSlots) 100 (Samples.hash 2) := by
  obtain ⟨ordered, final⟩ := crossSlotFinality (Samples.cfgWith 50) orderedSlots
    orderedSlots_keeps orderedSlots_neverRecreated
  have cached : (cacheAfter 3 orderedSlots).bind (fun cache => cache.inner[100]?) =
      some (Samples.hash 2) := by decide +kernel
  obtain ⟨cache, found, held⟩ := Option.bind_eq_some_iff.mp cached
  have later : (emittedEntries ((events (Samples.cfgWith 50) orderedSlots).take 3)).any
      (fun e => 100 < e.slot) = true := by decide +kernel
  obtain ⟨e, listed, below⟩ := List.any_eq_true.mp later
  have handled := (handles_handling ∅ ((events (Samples.cfgWith 50) orderedSlots).take 3)).inOrder
  refine ⟨ordered, (final _ 512 _ ((events (Samples.cfgWith 50) orderedSlots).drop 3) cache rfl ?_
    found e ?_).1 100 _ (of_decide_eq_true below) held⟩
  · rw [handled, List.take_append_drop]
  · rw [handled]
    exact mem_emittedEntries.mp listed

end SenderAnalysis

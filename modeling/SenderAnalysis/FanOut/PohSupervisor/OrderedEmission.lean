import SenderAnalysis.Foundations.Traces
import SenderAnalysis.FanOut.Samples
import SenderAnalysis.FanOut.PohSupervisor.Incarnations

/-!
# Ordered, gap-free emission

One incarnation of a slot emits its entries and its missing markers for the
indices 0, 1, 2, and so on, every index once and in this order, up to the cursor.
The cursor is moved in four places: by an arrival in order, by the drain after it,
by phase A of a sweep, and by the flush of a seal. All four move it by one with one
event, which is what the invariant `InOrder` says of a single move.
-/

set_option autoImplicit false

namespace SenderAnalysis

namespace PohSupervisor

open Std OrderedMap

/-- The indices of a trace, in the order they were emitted. -/
def emittedIndices (events : List OrderedEvent) : List Nat :=
  events.filterMap fun event => event.index?.map UInt32.toNat

@[simp] theorem emittedIndices_append (first second : List OrderedEvent) :
    emittedIndices (first ++ second) = emittedIndices first ++ emittedIndices second :=
  List.filterMap_append

/-- A missing marker was emitted. -/
def MissingEmitted (events : List OrderedEvent) : Prop :=
  ∃ m, OrderedEvent.missing m ∈ events

/-- An event that is an entry is uncertain exactly when a missing marker came
before it. -/
def UncertainAfter (before : List OrderedEvent) (event : OrderedEvent) : Prop :=
  ∀ e, event = .entry e → (e.tickUncertain = true ↔ MissingEmitted before)

/-- The hash of the last entry of a trace. -/
def lastEmittedHash (events : List OrderedEvent) : Option Hash :=
  (emittedEntries events).getLast?.map fun e => e.observation.entryHash

/-! ## The invariant -/

/-- The state of a slot and the trace of its incarnation, when all indices stay
below `2 ^ 32 - 1`. -/
structure InOrder (slot : PohSlot) (events : List OrderedEvent) : Prop where
  indices : emittedIndices events = List.range slot.nextExpectedIdx.toNat
  totals : slot.totalEmitted + slot.missingCount = slot.nextExpectedIdx.toNat
  uncertain : EachAfter UncertainAfter events
  flagged : slot.hasMissing = true ↔ MissingEmitted events
  lastHash : slot.lastEntryHash = lastEmittedHash events
  own : ∀ e ∈ emittedEntries events, e.observation.entryIndex = e.entryIndex
  emptied : slot.isSealed = true → slot.pending = ∅
  unended : slot.isSealed = false → ∀ event ∈ events, event.isTerminal = false
  reported : ∀ event ∈ events, event.isTerminal = true →
    event.lastEntryHash? = some ((lastEmittedHash events).getD Hash.default)
  bounded : ∀ idx ∈ slot.pending, idx.toNat < 2 ^ 32 - 1

theorem initial_inOrder : InOrder {} [] where
  indices := rfl
  totals := rfl
  uncertain := eachAfter_nil _
  flagged := by simp [MissingEmitted]
  lastHash := rfl
  own := by simp [emittedEntries]
  emptied := by simp
  unended := by simp
  reported := by simp
  bounded := fun _ member => absurd member ExtTreeMap.not_mem_empty

/-- The cursor is stepped without wrapping. -/
theorem toNat_succ {next : UInt32} (room : next.toNat < 2 ^ 32 - 1) :
    (next + 1).toNat = next.toNat + 1 := by
  have one : (1 : UInt32).toNat = 1 := rfl
  rw [UInt32.toNat_add, one]
  omega

theorem saturatingAdd_one {bits count : Nat} (room : count < 2 ^ bits - 1) :
    saturatingAdd bits count 1 = count + 1 := by
  unfold saturatingAdd
  omega

theorem missingEmitted_concat_entry (events : List OrderedEvent) (e : OrderedEntry) :
    MissingEmitted (events ++ [.entry e]) ↔ MissingEmitted events := by
  simp [MissingEmitted]

/-- A move that emits the entry at the cursor and steps the cursor. -/
theorem InOrder.entry {slot next : PohSlot} {events : List OrderedEvent}
    (inv : InOrder slot events) (opened : slot.isSealed = false) {merged : MergedEntry}
    (here : merged.observation.entryIndex = slot.nextExpectedIdx)
    (room : slot.nextExpectedIdx.toNat < 2 ^ 32 - 1) {noted : PohSlot}
    (sameFlag : noted.hasMissing = slot.hasMissing) (reordered : Bool) (wait : Nat)
    (cursor : next.nextExpectedIdx = slot.nextExpectedIdx + 1)
    (total : next.totalEmitted = saturatingAdd 32 slot.totalEmitted 1)
    (missing : next.missingCount = slot.missingCount)
    (flag : next.hasMissing = slot.hasMissing)
    (hash : next.lastEntryHash = some merged.observation.entryHash)
    (still : next.isSealed = false) (buffer : ∀ idx ∈ next.pending, idx ∈ slot.pending) :
    InOrder next (events ++ [entryEvent noted merged reordered wait]) where
  indices := by
    rw [emittedIndices_append, inv.indices, cursor, toNat_succ room, List.range_succ]
    simp [emittedIndices, entryEvent, OrderedEvent.index?, here]
  totals := by
    have totals := inv.totals
    rw [total, missing, cursor, toNat_succ room, saturatingAdd_one (by omega)]
    omega
  uncertain := by
    refine eachAfter_concat.mpr ⟨inv.uncertain, ?_⟩
    rintro e ⟨⟩
    show noted.hasMissing = true ↔ _
    rw [sameFlag]
    exact inv.flagged
  flagged := by
    rw [flag, inv.flagged]
    exact (missingEmitted_concat_entry events _).symm
  lastHash := by
    rw [hash]
    simp [lastEmittedHash, emittedEntries, entryEvent, OrderedEvent.ordered?]
  own := by
    intro e member
    rw [emittedEntries_append, List.mem_append] at member
    rcases member with old | new
    · exact inv.own e old
    · simp only [emittedEntries, entryEvent, OrderedEvent.ordered?, List.filterMap_cons,
        List.filterMap_nil, List.mem_singleton] at new
      rw [new]
  emptied := by simp [still]
  unended := by
    intro _ event member
    rcases List.mem_append.mp member with old | new
    · exact inv.unended opened event old
    · rw [List.mem_singleton.mp new]
      rfl
  reported := by
    intro event member terminal
    rcases List.mem_append.mp member with old | new
    · rw [inv.unended opened event old] at terminal
      cases terminal
    · rw [List.mem_singleton.mp new] at terminal
      cases terminal
  bounded := fun idx member => inv.bounded idx (buffer idx member)

/-- A move that emits a missing marker for the cursor and steps the cursor. -/
theorem InOrder.missing {slot : PohSlot} {events : List OrderedEvent}
    (inv : InOrder slot events) (opened : slot.isSealed = false)
    (room : slot.nextExpectedIdx.toNat < 2 ^ 32 - 1) (cfg : Config) (slotKey : Nat)
    (now : Instant) :
    InOrder (emitMissing cfg slotKey now slot).1
      (events ++ sent (emitMissing cfg slotKey now slot).2) := by
  obtain ⟨waited, event⟩ := sent_emitMissing cfg slotKey slot now
  rw [event]
  have none? : emittedEntries [.missing ⟨slotKey, slot.nextExpectedIdx, waited⟩] = [] := rfl
  have sameHash : lastEmittedHash (events ++ [.missing ⟨slotKey, slot.nextExpectedIdx, waited⟩]) =
      lastEmittedHash events := by
    simp [lastEmittedHash, none?]
  have totals := inv.totals
  refine
    { indices := ?_, totals := ?_, uncertain := ?_, flagged := ?_, lastHash := ?_, own := ?_,
      emptied := ?_, unended := ?_, reported := ?_, bounded := inv.bounded }
  · rw [emittedIndices_append, inv.indices, emitMissing_nextExpectedIdx, toNat_succ room,
      List.range_succ]
    rfl
  · rw [emitMissing_totalEmitted, emitMissing_missingCount, emitMissing_nextExpectedIdx,
      toNat_succ room, saturatingAdd_one (by omega)]
    omega
  · refine eachAfter_concat.mpr ⟨inv.uncertain, ?_⟩
    rintro e ⟨⟩
  · simp [MissingEmitted]
  · rw [sameHash, emitMissing_lastEntryHash]
    exact inv.lastHash
  · rw [emittedEntries_append, none?, List.append_nil]
    exact inv.own
  · simp [opened]
  · intro _ other member
    rcases List.mem_append.mp member with old | new
    · exact inv.unended opened other old
    · rw [List.mem_singleton.mp new]
      rfl
  · intro other member terminal
    rcases List.mem_append.mp member with old | new
    · rw [inv.unended opened other old] at terminal
      cases terminal
    · rw [List.mem_singleton.mp new] at terminal
      cases terminal

theorem terminalEvent_lastEntryHash? (slotKey : Nat) (slot : PohSlot) :
    (terminalEvent slotKey slot).lastEntryHash? =
      some (slot.lastEntryHash.getD Hash.default) := by
  unfold terminalEvent
  split <;> rfl

theorem terminalEvent_index? (slotKey : Nat) (slot : PohSlot) :
    (terminalEvent slotKey slot).index? = none := by
  unfold terminalEvent
  split <;> rfl

theorem terminalEvent_ordered? (slotKey : Nat) (slot : PohSlot) :
    (terminalEvent slotKey slot).ordered? = none := by
  unfold terminalEvent
  split <;> rfl

theorem terminalEvent_ne_missing (slotKey : Nat) (slot : PohSlot) (m : OrderedMissing) :
    terminalEvent slotKey slot ≠ .missing m := by
  unfold terminalEvent
  split <;> simp

/-- The move that ends a slot whose buffer is empty. -/
theorem InOrder.close {slot : PohSlot} {events : List OrderedEvent} (inv : InOrder slot events)
    (emptied : slot.pending = ∅) (slotKey : Nat) :
    InOrder { slot with isSealed := true } (events ++ [terminalEvent slotKey slot]) := by
  have none? : emittedEntries [terminalEvent slotKey slot] = [] := by
    simp [emittedEntries, terminalEvent_ordered?]
  have sameHash : lastEmittedHash (events ++ [terminalEvent slotKey slot]) =
      lastEmittedHash events := by
    simp [lastEmittedHash, none?]
  refine
    { indices := ?_, totals := inv.totals, uncertain := ?_, flagged := ?_, lastHash := ?_,
      own := ?_, emptied := fun _ => emptied, unended := by simp, reported := ?_,
      bounded := inv.bounded }
  · rw [emittedIndices_append, inv.indices]
    simp [emittedIndices, terminalEvent_index?]
  · refine eachAfter_concat.mpr ⟨inv.uncertain, ?_⟩
    intro e same
    have none? := terminalEvent_ordered? slotKey slot
    rw [same] at none?
    cases none?
  · show slot.hasMissing = true ↔ _
    rw [inv.flagged]
    simp [MissingEmitted, (terminalEvent_ne_missing slotKey slot _).symm]
  · rw [sameHash]
    exact inv.lastHash
  · rw [emittedEntries_append, none?, List.append_nil]
    exact inv.own
  · intro event member terminal
    rw [sameHash]
    rcases List.mem_append.mp member with old | new
    · exact inv.reported event old terminal
    · rw [List.mem_singleton.mp new, terminalEvent_lastEntryHash?, inv.lastHash]

/-- **Every move keeps the emission in order.** -/
theorem Move.inOrder {cfg : Config} {slotKey : Nat} {slot : PohSlot} {label : Option SlotInput}
    {result : PohSlot × List SupervisorEffect} {events : List OrderedEvent}
    (move : Move cfg slotKey slot label result) (inv : InOrder slot events)
    (placed : Placed slotKey slot) (bounded : ∀ merged now, label = some (.arrive merged now) →
      merged.observation.entryIndex.toNat < 2 ^ 32 - 1) :
    InOrder result.1 (events ++ sent result.2) := by
  cases move with
  | afterSeal | advance | sealing => simpa using inv
  | refuse | late =>
    simp only [sent_fetchAdd, sent_nil, List.append_nil]
    exact ⟨inv.indices, inv.totals, inv.uncertain, inv.flagged, inv.lastHash, inv.own, inv.emptied,
      inv.unended, inv.reported, inv.bounded⟩
  | emit merged now opened here =>
    have room := bounded merged now rfl
    rw [here] at room
    have sentEvent : sent (emitAtCursor slot merged now).2 =
        [entryEvent (slot.noted now) merged false 0] := rfl
    rw [sentEvent]
    exact inv.entry opened here room rfl false 0 rfl rfl rfl rfl rfl opened fun _ member => member
  | buffer merged now opened above room =>
    simp only [sent_fetchMax, sent_nil, List.append_nil]
    refine ⟨inv.indices, inv.totals, inv.uncertain, inv.flagged, inv.lastHash, inv.own, ?_,
      inv.unended, inv.reported, ?_⟩
    · intro closed
      rw [show slot.isSealed = true from closed] at opened
      cases opened
    · intro idx member
      rcases ExtTreeMap.mem_insert.mp member with same | old
      · have equal : merged.observation.entryIndex = idx := compare_eq_iff_eq.mp same
        exact equal ▸ bounded merged now rfl
      · exact inv.bounded idx old
  | pop now entry opened found =>
    have member := mem_of_firstEntry found
    have here := (placed _ _ (getElem?_of_firstEntry found)).2
    rw [sent_emitPending]
    exact inv.entry opened here (inv.bounded _ member) rfl true _ rfl rfl rfl rfl rfl opened
      fun idx kept => (ExtTreeMap.mem_erase.mp kept).2
  | skip now first entry opened found gap =>
    have within := inv.bounded first (mem_of_firstEntry found)
    have below := UInt32.lt_iff_toNat_lt.mp gap
    exact inv.missing opened (by omega) cfg slotKey now
  | close now opened emptied =>
    rw [sent_closingEffects]
    exact inv.close emptied slotKey

/-- The index of an arrival can be stepped without wrapping. -/
def SlotInput.Bounded (input : SlotInput) : Prop :=
  ∀ merged now, input = .arrive merged now →
    merged.observation.entryIndex.toNat < 2 ^ 32 - 1

/-- The emission of an incarnation is in order. -/
theorem slotRun_inOrder (cfg : Config) (slotKey : Nat) (inputs : List SlotInput)
    (accepted : ∀ input ∈ inputs, input.BelongsTo slotKey ∧ input.Bounded) :
    InOrder (slotRun cfg slotKey inputs).1 (incarnationEvents cfg slotKey inputs) := by
  refine @incarnation_induction cfg slotKey (fun _ slot effects => InOrder slot (sent effects))
    (fun input => input.BelongsTo slotKey ∧ input.Bounded) (fun _ fine => fine.1)
    initial_inOrder ?_ inputs accepted
  intro past slot effects label result inv _ placed fine move
  rw [sent_append]
  refine move.inOrder inv placed ?_
  intro merged now same
  exact (fine _ same).1.2 merged now rfl

/-! ## The claim about an incarnation -/

/-- What one incarnation of a slot has emitted is gap-free and in order. -/
structure GapFree (slot : PohSlot) (events : List OrderedEvent) : Prop where
  /-- The indices emitted are those below the cursor, each once, increasing. -/
  indices : emittedIndices events = List.range slot.nextExpectedIdx.toNat
  totals : slot.totalEmitted + slot.missingCount = slot.nextExpectedIdx.toNat
  /-- Every buffered index of an open slot is above the cursor. -/
  quiet : slot.isSealed = false → ∀ idx ∈ slot.pending, slot.nextExpectedIdx < idx
  uncertain : ∀ before e after, events = before ++ .entry e :: after →
    (e.tickUncertain = true ↔ ∃ m, OrderedEvent.missing m ∈ before)
  emptied : slot.isSealed = true → slot.pending = ∅
  /-- A terminal event reports the hash of the entry with the highest index. -/
  reported : ∀ event ∈ events, event.isTerminal = true →
    ∀ e, OrderedEvent.entry e ∈ events →
      (∀ other, OrderedEvent.entry other ∈ events → other.entryIndex ≤ e.entryIndex) →
      event.lastEntryHash? = some e.observation.entryHash

/-- The indices of the entries are among the indices, in the same order. -/
theorem entryIndices_sublist (events : List OrderedEvent) :
    ((emittedEntries events).map fun e => e.entryIndex.toNat).Sublist (emittedIndices events) := by
  induction events with
  | nil => exact .slnil
  | cons event rest ih =>
    cases event with
    | entry e => exact ih.cons_cons e.entryIndex.toNat
    | missing m => exact ih.cons m.entryIndex.toNat
    | slotComplete c => exact ih
    | slotIncomplete i => exact ih

/-- In an ordered trace, the entry with the highest index is the last one. -/
theorem InOrder.lastHash_of_highest {slot : PohSlot} {events : List OrderedEvent}
    (inv : InOrder slot events) {e : OrderedEntry} (member : OrderedEvent.entry e ∈ events)
    (highest : ∀ other, OrderedEvent.entry other ∈ events → other.entryIndex ≤ e.entryIndex) :
    lastEmittedHash events = some e.observation.entryHash := by
  have increasing : ((emittedEntries events).map fun e => e.entryIndex.toNat).Pairwise (· < ·) := by
    have sorted := @List.pairwise_lt_range slot.nextExpectedIdx.toNat
    rw [← inv.indices] at sorted
    exact sorted.sublist (entryIndices_sublist events)
  have listed := mem_emittedEntries.mpr member
  unfold lastEmittedHash
  rcases List.eq_nil_or_concat (emittedEntries events) with none | ⟨front, last, split⟩
  · rw [none] at listed
    cases listed
  · rw [split, List.concat_eq_append] at listed increasing ⊢
    rcases List.mem_append.mp listed with before | equal
    · -- An entry before the last one has a smaller index.
      have final : OrderedEvent.entry last ∈ events := by
        refine mem_emittedEntries.mp ?_
        rw [split]
        simp
      have above := UInt32.le_iff_toNat_le.mp (highest last final)
      rw [List.map_append, List.pairwise_append] at increasing
      have below := increasing.2.2 _ (List.mem_map_of_mem before) last.entryIndex.toNat (by simp)
      omega
    · have same : e = last := by simpa using equal
      simp [same]

theorem InOrder.gapFree {slot : PohSlot} {events : List OrderedEvent} (inv : InOrder slot events)
    (quiet : CursorStrictlyBelow slot) : GapFree slot events where
  indices := inv.indices
  totals := inv.totals
  quiet := fun _ => quiet
  uncertain := fun before e after split => inv.uncertain before (.entry e) after split e rfl
  emptied := inv.emptied
  reported := by
    intro event member terminal e emitted highest
    rw [inv.reported event member terminal, inv.lastHash_of_highest emitted highest]
    rfl

/-- **Ordered, gap-free emission.** In every run whose arrivals have an index below
`2 ^ 32 - 1`, the events of a slot are those of its incarnations, the state held
for the slot is the state of its current incarnation, and what each incarnation
has emitted is gap-free and in order. -/
theorem incarnations_gapFree (cfg : Config) (inputs : List Input)
    (bounded : ∀ merged now, Input.receive merged now ∈ inputs →
      merged.observation.entryIndex.toNat < 2 ^ 32 - 1)
    (slotKey : Nat) :
    (events cfg inputs).filter (fun event => event.slot == slotKey) =
      (incarnations cfg slotKey inputs).flatMap (incarnationEvents cfg slotKey) ∧
    (run cfg inputs).1.slots[slotKey]? =
      (history cfg slotKey inputs).current.map (fun own => (slotRun cfg slotKey own).1) ∧
    ∀ own ∈ incarnations cfg slotKey inputs,
      GapFree (slotRun cfg slotKey own).1 (incarnationEvents cfg slotKey own) := by
  have tracked := tracked_run cfg slotKey inputs
  refine ⟨tracked.emitted, tracked.held, ?_⟩
  intro own member
  refine (slotRun_inOrder cfg slotKey own ?_).gapFree (slotRun_quiet cfg slotKey own)
  intro input present
  refine ⟨(tracked.proper own member).belong input present, ?_⟩
  rintro merged now rfl
  obtain ⟨received, listed⟩ := received_of_incarnation member present
  exact bounded merged received listed

open Samples in
/-- A gap of one index that a seal steps over. -/
def gapInputs : List Input :=
  [.receive (merged 100 0 12500 0 1) 1, .receive (merged 100 2 12500 0 2) 2, .shutdown 3]

theorem gapInputs_bounded : ∀ merged now, Input.receive merged now ∈ gapInputs →
    merged.observation.entryIndex.toNat < 2 ^ 32 - 1 := by
  intro merged now member
  simp only [gapInputs, List.mem_cons, Input.receive.injEq, reduceCtorEq, List.not_mem_nil,
    or_false] at member
  rcases member with ⟨rfl, -⟩ | ⟨rfl, -⟩ <;> decide

open Samples in
theorem incarnations_gapFree_gapInputs :
    GapFree
      (slotRun (cfgWith 50000000) 100
        [.arrive (merged 100 0 12500 0 1) 1, .arrive (merged 100 2 12500 0 2) 2, .advance 3,
          .sealing 3]).1
      (incarnationEvents (cfgWith 50000000) 100
        [.arrive (merged 100 0 12500 0 1) 1, .arrive (merged 100 2 12500 0 2) 2, .advance 3,
          .sealing 3]) :=
  (incarnations_gapFree (cfgWith 50000000) gapInputs gapInputs_bounded 100).2.2 _
    (by decide +kernel)

end PohSupervisor

end SenderAnalysis

import SenderAnalysis.FanOut.Pipeline.MergeTransparency
import SenderAnalysis.FanOut.Pipeline.ScheduledTicks

/-!
# Which triggers fire, from the blocks alone

Two sources deliver the entries of some blocks to the merger, the supervisor gets what
the merger hands on, and the engine handles what the supervisor emits. When nothing
disturbs the supervisor, the triggers that fire depend on the blocks and the schedule and
on nothing else: a scheduled tick of a slot fires exactly when the slot's block has that
many ticks, and no trigger of the run is uncertain (`triggers_exact`).

The ticks that a replay carries are counted first (`replay_carries`). An emitted entry is
then traced back to the replay of its slot, and a trigger to an emitted entry
(`TriggerEngine.fired_from_entry`).
-/

set_option autoImplicit false

namespace SenderAnalysis

open PohSupervisor
open Merger (Delivery merged)

/-- The entries of a block that are ticks. -/
def tickEntries (contents : List EntryContent) : Nat :=
  contents.countP fun content => decide (content.txCount = 0)

namespace PohSupervisor

/-! ## The ticks a replay carries -/

theorem tickEntries_concat (front : List EntryContent) (last : EntryContent) :
    tickEntries (front ++ [last]) = tickEntries front + if last.txCount = 0 then 1 else 0 := by
  simp [tickEntries, List.countP_cons]

/-- Counting stops at the number of ticks of a slot. -/
theorem tickAfter_eq (count : Nat) (txCount : UInt32) :
    tickAfter (min ticksPerSlot count) txCount =
      min ticksPerSlot (count + if txCount = 0 then 1 else 0) := by
  unfold tickAfter
  by_cases tick : txCount = 0
  · rw [if_pos tick]
    split
    · next room =>
      have low := room.2
      simp only [ticksPerSlot, saturatingAdd] at low ⊢
      omega
    · next full =>
      have high : ¬ min ticksPerSlot count < ticksPerSlot := fun low => full ⟨tick, low⟩
      omega
  · rw [if_neg fun both => tick both.1, if_neg tick, Nat.add_zero]

/-- Some entry of the events carries a tick index. -/
def Carries (tick : Nat) (events : List Essence) : Prop :=
  ∃ index hash hashes uncertain, .entry index hash tick hashes uncertain ∈ events

theorem carries_concat {tick : Nat} (front : List Essence) (index : UInt32) (hash : Hash)
    (last hashes : Nat) (uncertain : Bool) :
    Carries tick (front ++ [.entry index hash last hashes uncertain]) ↔
      Carries tick front ∨ tick = last := by
  constructor
  · rintro ⟨index', hash', hashes', uncertain', member⟩
    rcases List.mem_append.mp member with earlier | here
    · exact .inl ⟨_, _, _, _, earlier⟩
    · cases List.mem_singleton.mp here
      exact .inr rfl
  · rintro (⟨index', hash', hashes', uncertain', earlier⟩ | rfl)
    · exact ⟨_, _, _, _, List.mem_append_left _ earlier⟩
    · exact ⟨_, _, _, _, List.mem_append_right _ (List.mem_singleton_self _)⟩

/-- **A replay counts the ticks of its entries up to 64, and carries each of these
counts.** -/
theorem replay_carries (contents : List EntryContent) :
    (replay contents).1.tickIdx = min ticksPerSlot (tickEntries contents) ∧
      ∀ tick, 0 < tick →
        (Carries tick (replay contents).2 ↔ tick ≤ min ticksPerSlot (tickEntries contents)) := by
  induction contents using List.reverseRecOn with
  | nil =>
    refine ⟨rfl, fun tick positive => ⟨?_, fun low => ?_⟩⟩
    · rintro ⟨_, _, _, _, member⟩
      cases member
    · simp only [tickEntries, List.countP_nil] at low
      omega
  | append_singleton front last ih =>
    obtain ⟨reached, carried⟩ := ih
    have stepped : replay (front ++ [last]) = (((replay front).1.emit last).1,
        (replay front).2 ++ ((replay front).1.emit last).2) := runAll_concat _ _ _ _
    have next : ((replay front).1.emit last).1.tickIdx =
        min ticksPerSlot (tickEntries (front ++ [last])) := by
      rw [tickEntries_concat, ← tickAfter_eq, ← reached]
      rfl
    have count := tickEntries_concat front last
    refine ⟨by rw [stepped]; exact next, fun tick positive => ?_⟩
    rw [stepped]
    change Carries tick ((replay front).2 ++
      [.entry _ last.hash ((replay front).1.emit last).1.tickIdx _ _]) ↔ _
    rw [carries_concat, carried tick positive, next]
    split at count <;> omega

/-- The end of a slot carries no tick. -/
theorem carries_replayedEvents {slotKey : Nat} {contents : List EntryContent} {tick : Nat}
    (positive : 0 < tick) :
    Carries tick (replayedEvents slotKey contents) ↔
      tick ≤ min ticksPerSlot (tickEntries contents) := by
  rw [← (replay_carries contents).2 tick positive]
  unfold replayedEvents
  split
  · next blank =>
    subst blank
    exact Iff.rfl
  · constructor
    · rintro ⟨index, hash, hashes, uncertain, member⟩
      rcases List.mem_append.mp member with emitted | ends
      · exact ⟨_, _, _, _, emitted⟩
      · exact absurd (List.mem_singleton.mp ends).symm (terminal_ne_entry _ _ _ _ _ _ _)
    · rintro ⟨index, hash, hashes, uncertain, member⟩
      exact ⟨_, _, _, _, List.mem_append_left _ member⟩

/-- The essence of an emitted entry is among those of its slot. -/
theorem essence_mem_essencesAt {cfg : Config} {inputs : List Input} {e : OrderedEntry}
    (emitted : OrderedEvent.entry e ∈ events cfg inputs) :
    (OrderedEvent.entry e).essence ∈ essencesAt e.slot (run cfg inputs).2 := by
  refine List.mem_map_of_mem (List.mem_filter.mpr ⟨emitted, ?_⟩)
  simp [OrderedEvent.slot]

/-- A slot's essences carry a tick exactly when an emitted entry of the slot does. -/
theorem carries_essencesAt {cfg : Config} {inputs : List Input} {slotKey tick : Nat} :
    Carries tick (essencesAt slotKey (run cfg inputs).2) ↔
      ∃ e ∈ emittedEntries (events cfg inputs), e.slot = slotKey ∧ e.tickIdxInSlot = tick := by
  constructor
  · rintro ⟨index, hash, hashes, uncertain, member⟩
    obtain ⟨event, listed, same⟩ := List.mem_map.mp member
    obtain ⟨sentOut, ofSlot⟩ := List.mem_filter.mp listed
    cases event with
    | missing | slotComplete | slotIncomplete => cases same
    | entry e =>
      cases same
      exact ⟨e, mem_emittedEntries.mpr sentOut, by simpa [OrderedEvent.slot] using ofSlot, rfl⟩
  · rintro ⟨e, member, rfl, rfl⟩
    exact ⟨_, _, _, _, essence_mem_essencesAt (mem_emittedEntries.mp member)⟩

end PohSupervisor

/-! ## From the sources to the triggers -/

section Exact

open TriggerEngine (Handles triggersOf firings firedWindowSlots)

variable {cfg : Config} {block : Nat → List EntryContent} {deliveries : List Delivery}
  {inputs : List Input}

/-- The emitted entries of a slot carry the ticks of its block. -/
theorem emitted_carries (delivers : DeliverBlocks block deliveries)
    (running : ∀ now, Input.shutdown now ∉ inputs)
    (handedOver : received inputs = merged deliveries)
    (undisturbed : EachAfter (Undisturbed cfg block) inputs) (stoppedAt : Instant)
    {slotKey tick : Nat} (positive : 0 < tick) :
    (∃ e ∈ emittedEntries (events cfg (inputs ++ [.shutdown stoppedAt])),
        e.slot = slotKey ∧ e.tickIdxInSlot = tick) ↔
      tick ≤ min ticksPerSlot (tickEntries (block slotKey)) := by
  rw [← carries_essencesAt,
    run_replays inputs running (handedOver ▸ delivers.merged) undisturbed stoppedAt slotKey,
    carries_replayedEvents positive]

/-- An emitted entry is certain, and some delivery is of its slot. -/
theorem emitted_delivered (delivers : DeliverBlocks block deliveries)
    (running : ∀ now, Input.shutdown now ∉ inputs)
    (handedOver : received inputs = merged deliveries)
    (undisturbed : EachAfter (Undisturbed cfg block) inputs) (stoppedAt : Instant)
    {e : OrderedEntry}
    (emitted : OrderedEvent.entry e ∈ events cfg (inputs ++ [.shutdown stoppedAt])) :
    e.tickUncertain = false ∧ ∃ delivery ∈ deliveries, delivery.1.slot = e.slot := by
  have listed := essence_mem_essencesAt emitted
  rw [run_replays inputs running (handedOver ▸ delivers.merged) undisturbed stoppedAt e.slot]
    at listed
  refine ⟨replayedEvents_certain listed, ?_⟩
  have nonempty : block e.slot ≠ [] := by
    intro blank
    rw [replayedEvents, if_pos blank] at listed
    cases listed
  obtain ⟨delivery, member, own, _⟩ :=
    delivers.complete e.slot 0 (List.length_pos_iff.mpr nonempty)
  exact ⟨delivery, member, own⟩

/-- **Two sources, one set of triggers.** When the sources deliver the blocks and nothing
disturbs the supervisor, every trigger that fires is certain and is for a scheduled tick
that the slot's block has. Every such tick fires, and once when no delivery is of a slot
more than 256 ahead. -/
theorem triggers_exact (cfg : Config) (block : Nat → List EntryContent)
    (deliveries : List Delivery) (delivers : DeliverBlocks block deliveries)
    (inputs : List Input) (running : ∀ now, Input.shutdown now ∉ inputs)
    (handedOver : received inputs = merged deliveries)
    (undisturbed : EachAfter (Undisturbed cfg block) inputs) (stoppedAt : Instant)
    (schedule : Finset (Nat × Nat)) (start : TriggerEngine.State)
    (handled : List TriggerEngine.Input)
    (handles : Handles schedule (events cfg (inputs ++ [.shutdown stoppedAt])) start handled) :
    (∀ trigger ∈ triggersOf (TriggerEngine.run start handled).2,
      trigger.tickUncertain = false ∧ (trigger.slot, trigger.tick) ∈ schedule ∧
        0 < trigger.tick ∧
        trigger.tick ≤ min ticksPerSlot (tickEntries (block trigger.slot))) ∧
    ∀ slot tick, (slot, tick) ∈ schedule → 0 < tick →
      tick ≤ min ticksPerSlot (tickEntries (block slot)) →
        1 ≤ firings slot tick (TriggerEngine.run start handled).2 ∧
          ((∀ delivery ∈ deliveries, delivery.1.slot ≤ slot + firedWindowSlots) →
            firings slot tick (TriggerEngine.run start handled).2 = 1) := by
  constructor
  · intro trigger fired
    obtain ⟨scheduled, positive, e, member, slot, tick, certainty⟩ :=
      TriggerEngine.fired_from_entry start handles.fixed trigger fired
    rw [handles.entriesOf] at member
    have certain := (emitted_delivered delivers running handedOver undisturbed stoppedAt
      (mem_emittedEntries.mp member)).1
    refine ⟨certainty ▸ certain, scheduled, positive, ?_⟩
    exact (emitted_carries delivers running handedOver undisturbed stoppedAt positive).mp
      ⟨e, member, slot, tick⟩
  · intro slot tick scheduled positive upTo
    have account := TriggerEngine.firingState_run positive scheduled start handles.fresh handled
      handles.fixed
    rw [handles.entriesOf] at account
    have seen := (emitted_carries delivers running handedOver undisturbed stoppedAt positive).mpr
      upTo
    refine ⟨account.seen seen, fun near => ?_⟩
    refine (account.once ?_ seen).1
    intro past entry rest split _ earlier member
    have emitted : earlier ∈ emittedEntries (events cfg (inputs ++ [.shutdown stoppedAt])) :=
      split ▸ List.mem_append_left _ member
    obtain ⟨_, delivery, listed, own⟩ := emitted_delivered delivers running handedOver undisturbed
      stoppedAt (mem_emittedEntries.mp emitted)
    exact own ▸ near delivery listed

end Exact

/-! ## A tick that comes first, from the slower source -/

theorem swapped_delivers : DeliverBlocks sampleBlock swappedDeliveries where
  distinct := by
    intro slot
    unfold sampleBlock onlySlot
    split <;> decide +kernel
  reports := by
    change ∀ delivery ∈ swappedDeliveries,
      (sampleBlock delivery.1.slot)[delivery.1.entryIndex.toNat]? = some delivery.1.content
    decide +kernel
  complete := by
    intro slot place within
    unfold sampleBlock onlySlot at within
    split at within
    · next own =>
      subst own
      match place, within with
      | 0, _ => exact ⟨swappedDeliveries[1], by decide +kernel, by decide +kernel⟩
      | 1, _ => exact ⟨swappedDeliveries[0], by decide +kernel, by decide +kernel⟩
    · simp at within
  inWindow := by
    change EachAfter _ ([] ++ [_] ++ [_] ++ [_])
    rw [eachAfter_concat, eachAfter_concat, eachAfter_concat]
    exact ⟨⟨⟨eachAfter_nil _, by decide⟩, by decide⟩, by decide⟩

/-- The supervisor receives what the merger hands on of them. -/
def swappedInputs : List Input :=
  (merged swappedDeliveries).map fun entry => .receive entry 0

theorem swapped_undisturbed :
    EachAfter (Undisturbed (Samples.cfgWith 50000000) sampleBlock) swappedInputs := by
  have two : swappedInputs = [] ++ [.receive (Delivery.handedOn swappedDeliveries[0]) 0] ++
      [.receive (Delivery.handedOn swappedDeliveries[1]) 0] := by decide +kernel
  rw [two, eachAfter_concat, eachAfter_concat]
  refine ⟨⟨eachAfter_nil _, ?_⟩, ?_⟩
  · intro above
    decide +kernel
  · intro above
    exact absurd above (by decide +kernel)

theorem triggers_exact_swapped :
    TriggerEngine.firings 100 1 (TriggerEngine.run {} (handling {(100, 1)}
      (events (Samples.cfgWith 50000000) (swappedInputs ++ [.shutdown 9])))).2 = 1 :=
  ((triggers_exact (Samples.cfgWith 50000000) sampleBlock swappedDeliveries swapped_delivers
    swappedInputs (by simp [swappedInputs]) (by decide +kernel) swapped_undisturbed 9 {(100, 1)} {}
    _ (handles_handling _ _)).2 100 1 (by decide) (by decide) (by decide)).2 (by decide)

end SenderAnalysis

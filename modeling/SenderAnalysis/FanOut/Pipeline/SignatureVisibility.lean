import SenderAnalysis.FanOut.Merger.ExactlyOnce
import SenderAnalysis.FanOut.PohSupervisor.ArrivalFates
import SenderAnalysis.FanOut.TriggerEngine.Matching

/-!
# Which signatures the engine gets to see

The merger hands on the first sighting of every entry, and a sighting on Yellowstone
has no signatures. So the signatures of an entry reach the engine only when ShredStream
delivers the entry first. What the merger hands on must then be accepted by the
supervisor and keep its place in the buffer.

These conditions are exact (`matched_iff`): a signature that is pending from the start
is matched exactly when it belongs to some entry that meets them. With the two sources
in the other order, the same deliveries leave it unmatched.
-/

set_option autoImplicit false

namespace SenderAnalysis

open PohSupervisor
open Merger (Delivery merged)
open TriggerEngine (Matched carried)

/-- What comes in on the Yellowstone channel is decoded from updates. -/
def Decoded (deliveries : List Delivery) : Prop :=
  ∀ delivery ∈ deliveries, delivery.2 = .yellowstone →
    ∃ update observedAt, delivery.1 = decodeEntry update observedAt

/-- ShredStream delivers the entry, and nothing delivered it before. -/
def WonByShredStream (deliveries : List Delivery) (delivery : Delivery) : Prop :=
  delivery.2 = .shredStream ∧
    ∃ before after, deliveries = before ++ delivery :: after ∧
      delivery.key ∉ before.map Delivery.key

/-- The supervisor accepts the observation, and nothing takes its place in the buffer. -/
def GetsThrough (cfg : Config) (inputs : List Input) (observation : EntryObservation) : Prop :=
  (∃ past input rest, inputs = past ++ input :: rest ∧ Accepted cfg observation past input) ∧
    EachAfter (fun past input => ¬ Displaced cfg observation past input) inputs

section Visibility

variable {deliveries : List Delivery}

/-- Inside the window, what is handed on is the first delivery of its entry. -/
theorem merged_first (inWindow : Merger.WithinWindow deliveries) {entry : MergedEntry}
    (handed : entry ∈ merged deliveries) :
    ∃ delivery before after, entry = delivery.handedOn ∧
      deliveries = before ++ delivery :: after ∧ delivery.key ∉ before.map Delivery.key := by
  rw [Merger.merged_eq_firstOccurrences inWindow] at handed
  obtain ⟨delivery, listed, rfl⟩ := List.mem_map.mp handed
  obtain ⟨before, after, split, fresh⟩ := split_of_mem_firstOccurrences Delivery.key listed
  exact ⟨delivery, before, after, rfl, split, fresh⟩

/-- Inside the window, no observation is handed on twice. -/
theorem merged_once (inWindow : Merger.WithinWindow deliveries) (observation : EntryObservation) :
    (merged deliveries).countP (fun entry => decide (entry.observation = observation)) ≤ 1 := by
  have keys := nodup_firstOccurrences Delivery.key deliveries
  have handed : ((merged deliveries).map MergedEntry.key).Nodup := by
    rw [Merger.merged_eq_firstOccurrences inWindow, List.map_map]
    exact keys
  have few := List.nodup_iff_count_le_one.mp handed (observation.slot, observation.entryHash)
  rw [List.count, List.countP_map] at few
  refine Nat.le_trans (List.countP_mono_left ?_) few
  intro entry _ same
  rw [← of_decide_eq_true same]
  exact beq_self_eq_true _

/-- **A pending signature is matched exactly when ShredStream is the first to deliver an
entry that carries it, and the supervisor accepts that entry and keeps it.** -/
theorem matched_iff (cfg : Config) (decoded : Decoded deliveries)
    (inWindow : Merger.WithinWindow deliveries) {inputs : List Input}
    (handedOver : received inputs = merged deliveries) (stoppedAt : Instant)
    {start : TriggerEngine.State} {signature : Signature}
    (pending : signature ∈ start.pendingSigs) {handled : List TriggerEngine.Input}
    (allHandled : handled.filterMap TriggerEngine.Input.event? =
      events cfg (inputs ++ [.shutdown stoppedAt])) :
    Matched signature (TriggerEngine.run start handled).2 ↔
      ∃ delivery, WonByShredStream deliveries delivery ∧
        signature ∈ delivery.1.signatures ∧ GetsThrough cfg inputs delivery.1 := by
  have fate : ∀ observation,
      (∃ e, .entry e ∈ events cfg (inputs ++ [.shutdown stoppedAt]) ∧
        e.observation = observation) ↔ GetsThrough cfg inputs observation := fun observation =>
    emitted_iff cfg observation inputs (handedOver ▸ merged_once inWindow observation) stoppedAt
  rw [TriggerEngine.matched_iff_carried pending, allHandled]
  constructor
  · rintro ⟨event, emitted, carries⟩
    cases event with
    | missing | slotComplete | slotIncomplete =>
      simp [carried, OrderedEvent.ordered?] at carries
    | entry e =>
      have through := (fate e.observation).mp ⟨e, emitted, rfl⟩
      obtain ⟨past, input, rest, split, accepted⟩ := through.1
      cases input with
      | sweep | shutdown => cases accepted
      | receive entry now =>
        have arrived : entry ∈ received inputs := by simp [split, received, Input.merged?]
        obtain ⟨delivery, before, after, rfl, place, fresh⟩ :=
          merged_first inWindow (handedOver ▸ arrived)
        have same : delivery.1 = e.observation := accepted.1
        rw [← same] at through
        have signed : signature ∈ delivery.1.signatures := by
          rw [same]
          exact carries
        refine ⟨delivery, ⟨?_, before, after, place, fresh⟩, signed, through⟩
        cases source : delivery.2 with
        | shredStream => rfl
        | yellowstone =>
          obtain ⟨update, observedAt, made⟩ := decoded delivery (by simp [place]) source
          rw [made] at signed
          cases signed
  · rintro ⟨delivery, _, signed, through⟩
    obtain ⟨e, emitted, same⟩ := (fate delivery.1).mpr through
    exact ⟨.entry e, emitted, by simpa [carried, OrderedEvent.ordered?, same] using signed⟩

end Visibility

/-! ## The order of the sources decides -/

/-- The entry as ShredStream sees it, with its signature. -/
def signedDelivery : Delivery :=
  ({ Samples.obs 100 0 10 1 1 with signatures := [Samples.signature 5] }, .shredStream)

/-- The entry as Yellowstone sees it. -/
def unsignedDelivery : Delivery :=
  (decodeEntry ⟨100, 0, 10, (Samples.hash 1).toList, 1⟩ 0, .yellowstone)

/-- The supervisor receives what the merger hands on. -/
def handedOver (deliveries : List Delivery) : List Input :=
  (merged deliveries).map fun entry => .receive entry 1

/-- The engine handles what the supervisor emits. -/
def engineInputs (deliveries : List Delivery) : List TriggerEngine.Input :=
  (events (Samples.cfgWith 50000000) (handedOver deliveries ++ [.shutdown 9])).map fun event =>
    .receive event ∅ 0

/-- An engine that waits for the signature. -/
def waiting : TriggerEngine.State := { pendingSigs := {Samples.signature 5} }

theorem received_handedOver (deliveries : List Delivery) :
    received (handedOver deliveries) = merged deliveries := by
  rw [received, handedOver, List.filterMap_map]
  exact List.filterMap_some

theorem engineInputs_handled (deliveries : List Delivery) :
    (engineInputs deliveries).filterMap TriggerEngine.Input.event? =
      events (Samples.cfgWith 50000000) (handedOver deliveries ++ [.shutdown 9]) := by
  rw [engineInputs, List.filterMap_map]
  exact List.filterMap_some

/-- **When Yellowstone is first, the signature that ShredStream delivers is not
matched.** -/
theorem yellowstone_first_unmatched :
    ¬ ∀ (cfg : Config) (deliveries : List Delivery) (inputs : List Input) (stoppedAt : Instant)
      (start : TriggerEngine.State) (handled : List TriggerEngine.Input) (signature : Signature),
      Decoded deliveries → Merger.WithinWindow deliveries → received inputs = merged deliveries →
      EachAfter (fun past input => ∀ entry now, input = .receive entry now →
        (stateFound cfg entry.observation.slot past).isSealed = false) inputs →
      handled.filterMap TriggerEngine.Input.event? =
        events cfg (inputs ++ [.shutdown stoppedAt]) →
      signature ∈ start.pendingSigs →
      (∃ delivery ∈ deliveries, delivery.2 = .shredStream ∧
        signature ∈ delivery.1.signatures) →
      Matched signature (TriggerEngine.run start handled).2 := by
  intro claim
  have matched := claim (Samples.cfgWith 50000000) [unsignedDelivery, signedDelivery]
    (handedOver [unsignedDelivery, signedDelivery]) 9 waiting
    (engineInputs [unsignedDelivery, signedDelivery]) (Samples.signature 5) ?_ ?_
    (received_handedOver _) ?_ (engineInputs_handled _) (by decide) ?_
  · obtain ⟨hit, listed, _⟩ := matched
    have none : TriggerEngine.matchesOf (TriggerEngine.run waiting
        (engineInputs [unsignedDelivery, signedDelivery])).2 = [] := by decide +kernel
    rw [none] at listed
    cases listed
  · intro delivery member source
    simp only [List.mem_cons, List.not_mem_nil, or_false] at member
    rcases member with rfl | rfl
    · exact ⟨_, _, rfl⟩
    · cases source
  · change EachAfter _ ([] ++ [_] ++ [_])
    rw [eachAfter_concat, eachAfter_concat]
    exact ⟨⟨eachAfter_nil _, by decide⟩, by decide⟩
  · have one : handedOver [unsignedDelivery, signedDelivery] =
        [] ++ [.receive unsignedDelivery.handedOn 1] := by decide +kernel
    rw [one, eachAfter_concat]
    refine ⟨eachAfter_nil _, ?_⟩
    rintro entry now ⟨⟩
    decide +kernel
  · exact ⟨signedDelivery, by simp, rfl, by decide⟩

/-- When ShredStream is first, it is. -/
theorem matched_iff_shredStream_first :
    Matched (Samples.signature 5)
      (TriggerEngine.run waiting (engineInputs [signedDelivery, unsignedDelivery])).2 := by
  refine (@matched_iff [signedDelivery, unsignedDelivery] (Samples.cfgWith 50000000) ?_ ?_ _
    (received_handedOver _) 9 waiting (Samples.signature 5) (by decide) _
    (engineInputs_handled _)).mpr ⟨signedDelivery, ⟨rfl, [], _, rfl, by simp⟩, by decide, ?_⟩
  · intro delivery member source
    simp only [List.mem_cons, List.not_mem_nil, or_false] at member
    rcases member with rfl | rfl
    · cases source
    · exact ⟨_, _, rfl⟩
  · change EachAfter _ ([] ++ [_] ++ [_])
    rw [eachAfter_concat, eachAfter_concat]
    exact ⟨⟨eachAfter_nil _, by decide⟩, by decide⟩
  · have one : handedOver [signedDelivery, unsignedDelivery] =
        [] ++ [.receive signedDelivery.handedOn 1] := by decide +kernel
    rw [one]
    refine ⟨⟨[], _, [], rfl, by decide +kernel⟩, ?_⟩
    rw [eachAfter_concat]
    exact ⟨eachAfter_nil _, by decide +kernel⟩

end SenderAnalysis

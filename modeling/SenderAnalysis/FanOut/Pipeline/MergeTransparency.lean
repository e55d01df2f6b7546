import SenderAnalysis.FanOut.Merger.ExactlyOnce
import SenderAnalysis.FanOut.PohSupervisor.Replays

/-!
# Two sources look like one

Two sources deliver the entries of some slots to the merger, in any order and any number
of times, and the supervisor gets what the merger hands on. Since hash and index
determine each other within a slot, the merger hands every index on once, and an
undisturbed supervisor emits the replay of every slot.

A single source that delivers the entries of a slot in order and once is a special case.
So both yield the same events, up to what depends on the source and on waiting.
-/

set_option autoImplicit false

namespace SenderAnalysis

open PohSupervisor
open Merger (Delivery merged)

/-- The sources deliver the entries of the blocks, every one at least once, while the
merger remembers their slots. -/
structure DeliverBlocks (block : Nat → List EntryContent) (deliveries : List Delivery) :
    Prop where
  distinct : ∀ slot, ((block slot).map EntryContent.hash).Nodup
  reports : ∀ delivery ∈ deliveries, delivery.1.Reports block
  complete : ∀ slot place, place < (block slot).length →
    ∃ delivery ∈ deliveries, delivery.1.slot = slot ∧ delivery.1.entryIndex.toNat = place
  inWindow : Merger.WithinWindow deliveries

/-! ## What the merger hands on -/

section Merged

variable {block : Nat → List EntryContent} {deliveries : List Delivery}

/-- Reports of one place of a slot are reports of one entry. -/
theorem DeliverBlocks.key_of_place (delivers : DeliverBlocks block deliveries)
    {first second : Delivery} (here : first ∈ deliveries) (there : second ∈ deliveries)
    (slot : first.1.slot = second.1.slot) (index : first.1.entryIndex = second.1.entryIndex) :
    first.key = second.key := by
  have one := delivers.reports first here
  have two := delivers.reports second there
  rw [EntryObservation.Reports, slot, index] at one
  have same : first.1.content = second.1.content := Option.some.inj (one.symm.trans two)
  have hash : first.1.entryHash = second.1.entryHash := congrArg EntryContent.hash same
  exact Prod.ext slot hash

/-- Reports of one entry are reports of one place. -/
theorem DeliverBlocks.place_of_key (delivers : DeliverBlocks block deliveries)
    {first second : Delivery} (here : first ∈ deliveries) (there : second ∈ deliveries)
    (same : first.key = second.key) : first.1.entryIndex = second.1.entryIndex := by
  have one := delivers.reports first here
  have two := delivers.reports second there
  have slot : first.1.slot = second.1.slot := congrArg Prod.fst same
  have hash : first.1.entryHash = second.1.entryHash := congrArg Prod.snd same
  rw [EntryObservation.Reports, slot] at one
  have inside : first.1.entryIndex.toNat <
      ((block second.1.slot).map EntryContent.hash).length := by
    rw [List.length_map]
    exact (List.getElem?_eq_some_iff.mp one).1
  have equal : ((block second.1.slot).map EntryContent.hash)[first.1.entryIndex.toNat]? =
      ((block second.1.slot).map EntryContent.hash)[second.1.entryIndex.toNat]? := by
    rw [List.getElem?_map, List.getElem?_map, one, two]
    exact congrArg some hash
  exact UInt32.toNat_inj.mp ((List.getElem?_inj inside (delivers.distinct _)).mp equal)

/-- **The merger hands every entry of the blocks on exactly once.** -/
theorem DeliverBlocks.merged (delivers : DeliverBlocks block deliveries) :
    Delivers block (merged deliveries) := by
  rw [Merger.merged_eq_firstOccurrences delivers.inWindow]
  have inside : ∀ {delivery}, delivery ∈ firstOccurrences Delivery.key deliveries →
      delivery ∈ deliveries := mem_of_mem_firstOccurrences Delivery.key
  refine ⟨?_, ?_, ?_⟩
  · intro entry member
    obtain ⟨delivery, listed, rfl⟩ := List.mem_map.mp member
    exact delivers.reports delivery (inside listed)
  · rw [List.map_map, List.nodup_iff_pairwise_ne, List.pairwise_map]
    have keys := nodup_firstOccurrences Delivery.key deliveries
    rw [List.nodup_iff_pairwise_ne, List.pairwise_map] at keys
    refine keys.imp_of_mem ?_
    intro first second here there apart same
    exact apart (delivers.key_of_place (inside here) (inside there)
      (congrArg Prod.fst same) (congrArg Prod.snd same))
  · intro slot place within
    obtain ⟨delivery, member, own, index⟩ := delivers.complete slot place within
    obtain ⟨first, listed, same⟩ := exists_firstOccurrence Delivery.key member
    refine ⟨first.1.entryIndex, ?_, ?_⟩
    · refine mem_arrivedAt.mpr ⟨first.handedOn, List.mem_map.mpr ⟨first, listed, rfl⟩, ?_, rfl⟩
      exact (congrArg Prod.fst same).trans own
    · rw [delivers.place_of_key (inside listed) member same, index]

end Merged

/-! ## A single source, in order -/

/-- The observation of a slot's entry. -/
def observe (slotKey : Nat) (source : SourceKind) (content : EntryContent) (index : Nat) :
    EntryObservation where
  source := source
  observedAt := 0
  slot := slotKey
  entryIndex := UInt32.ofNat index
  numHashes := content.numHashes
  entryHash := content.hash
  txCount := content.txCount
  signatures := []
  firstShredAt := none
  leader := none

/-- A source delivers the entries of a slot in order, every one once. -/
def inOrder (slotKey : Nat) (source : SourceKind) (contents : List EntryContent) :
    List Delivery :=
  contents.zipIdx.map fun entry => (observe slotKey source entry.1 entry.2, source)

/-- The supervisor receives what the merger hands on of them, and is stopped. -/
def singleSource (slotKey : Nat) (source : SourceKind) (contents : List EntryContent) :
    List Input :=
  (merged (inOrder slotKey source contents)).map (fun entry => .receive entry 0) ++ [.shutdown 0]

section Single

variable {slotKey : Nat} {source : SourceKind} {contents : List EntryContent}

/-- The blocks in which only one slot has entries. -/
def onlySlot (slotKey : Nat) (contents : List EntryContent) (slot : Nat) : List EntryContent :=
  if slot = slotKey then contents else []

theorem inOrder_getElem? (place : Nat) :
    (inOrder slotKey source contents)[place]? =
      contents[place]?.map fun content => (observe slotKey source content place, source) := by
  simp [inOrder, Option.map_map, Function.comp_def]

theorem mem_inOrder {delivery : Delivery} :
    delivery ∈ inOrder slotKey source contents ↔
      ∃ place content, contents[place]? = some content ∧
        delivery = (observe slotKey source content place, source) := by
  rw [List.mem_iff_getElem?]
  simp only [inOrder_getElem?, Option.map_eq_some_iff]
  constructor
  · rintro ⟨place, content, present, rfl⟩
    exact ⟨place, content, present, rfl⟩
  · rintro ⟨place, content, present, rfl⟩
    exact ⟨place, content, present, rfl⟩

/-- The keys of the deliveries are those of the entries, in order. -/
theorem inOrder_keys :
    (inOrder slotKey source contents).map Delivery.key =
      contents.map fun content => (slotKey, content.hash) := by
  refine List.ext_getElem? fun place => ?_
  rw [List.getElem?_map, inOrder_getElem?, List.getElem?_map, Option.map_map]
  rfl

theorem inOrder_withinWindow : Merger.WithinWindow (inOrder slotKey source contents) := by
  intro past delivery rest split
  have own : ∀ other ∈ inOrder slotKey source contents, other.1.slot = slotKey := by
    intro other member
    obtain ⟨_, _, _, rfl⟩ := mem_inOrder.mp member
    rfl
  have bounded : ∀ deliveries : List Delivery, (∀ other ∈ deliveries, other.1.slot = slotKey) →
      Merger.highestSlot deliveries ≤ slotKey := by
    intro deliveries
    induction deliveries using List.reverseRecOn with
    | nil => intro _; exact Nat.zero_le _
    | append_singleton front last ih =>
      intro all
      have low := ih fun other member => all other (List.mem_append_left _ member)
      have last' := all last (by simp)
      rw [Merger.highestSlot_concat]
      omega
  have low := bounded past fun other member => own other (split ▸ List.mem_append_left _ member)
  have here : delivery.1.slot = slotKey := own delivery (by simp [split])
  show delivery.1.slot ≥ Merger.highestSlot past - dedupWindowSlots
  omega

/-- The merger hands on everything a single source delivers in order. -/
theorem merged_inOrder (distinct : (contents.map EntryContent.hash).Nodup) :
    merged (inOrder slotKey source contents) =
      (inOrder slotKey source contents).map Delivery.handedOn := by
  rw [Merger.merged_eq_firstOccurrences inOrder_withinWindow, firstOccurrences_of_nodup]
  rw [inOrder_keys]
  have pairs : (contents.map fun content => (slotKey, content.hash)) =
      (contents.map EntryContent.hash).map fun hash => (slotKey, hash) := by
    rw [List.map_map]
    rfl
  rw [pairs]
  exact distinct.map fun _ _ same => (Prod.mk.inj same).2

/-- A single source delivers its slot's blocks. -/
theorem inOrder_delivers (distinct : (contents.map EntryContent.hash).Nodup)
    (short : contents.length ≤ 2 ^ 32) :
    DeliverBlocks (onlySlot slotKey contents) (inOrder slotKey source contents) where
  distinct slot := by
    unfold onlySlot
    split
    · exact distinct
    · exact List.nodup_nil
  reports := by
    intro delivery member
    obtain ⟨place, content, present, rfl⟩ := mem_inOrder.mp member
    have inside := (List.getElem?_eq_some_iff.mp present).1
    have index : (UInt32.ofNat place).toNat = place := by
      rw [UInt32.toNat_ofNat']
      omega
    show (onlySlot slotKey contents slotKey)[(UInt32.ofNat place).toNat]? = some content
    rw [onlySlot, if_pos rfl, index, present]
  complete := by
    intro slot place within
    unfold onlySlot at within
    split at within
    · next own =>
      have present := List.getElem?_eq_getElem within
      refine ⟨_, mem_inOrder.mpr ⟨place, _, present, rfl⟩, own.symm, ?_⟩
      show (UInt32.ofNat place).toNat = place
      rw [UInt32.toNat_ofNat']
      omega
    · simp at within
  inWindow := inOrder_withinWindow

/-- The supervisor's inputs up to an entry. -/
def firstInputs (slotKey : Nat) (source : SourceKind) (contents : List EntryContent)
    (count : Nat) : List Input :=
  ((inOrder slotKey source contents).take count).map fun delivery =>
    .receive delivery.handedOn 0

theorem firstInputs_running (count : Nat) (now : Instant) :
    .shutdown now ∉ firstInputs slotKey source contents count := by
  simp [firstInputs, -List.map_take]

theorem received_firstInputs (count : Nat) :
    received (firstInputs slotKey source contents count) =
      ((inOrder slotKey source contents).take count).map Delivery.handedOn := by
  rw [received, firstInputs, List.filterMap_map]
  change List.filterMap (some ∘ Delivery.handedOn) _ = _
  rw [List.filterMap_eq_map]

theorem firstInputs_succ {count : Nat} {content : EntryContent}
    (present : contents[count]? = some content) :
    firstInputs slotKey source contents (count + 1) =
      firstInputs slotKey source contents count ++
        [.receive ⟨observe slotKey source content count, source⟩ 0] := by
  rw [firstInputs, List.take_add_one, inOrder_getElem?, present, List.map_append]
  rfl

/-- The entries below a place have arrived, and no other. -/
theorem mem_arrivedAt_firstInputs (short : contents.length ≤ 2 ^ 32) {count : Nat}
    (within : count ≤ contents.length) {idx : UInt32} :
    idx ∈ arrivedAt slotKey (received (firstInputs slotKey source contents count)) ↔
      idx.toNat < count := by
  have index : ∀ place < contents.length, (UInt32.ofNat place).toNat = place := by
    intro place inside
    rw [UInt32.toNat_ofNat']
    omega
  rw [received_firstInputs, mem_arrivedAt]
  constructor
  · rintro ⟨entry, member, _, rfl⟩
    obtain ⟨delivery, listed, rfl⟩ := List.mem_map.mp member
    obtain ⟨place, found⟩ := List.mem_iff_getElem?.mp listed
    rw [List.getElem?_take] at found
    split at found
    · next low =>
      rw [inOrder_getElem?] at found
      obtain ⟨content, present, rfl⟩ := Option.map_eq_some_iff.mp found
      show (UInt32.ofNat place).toNat < count
      rw [index place (by omega)]
      exact low
    · cases found
  · intro low
    have present := List.getElem?_eq_getElem (show idx.toNat < contents.length by omega)
    refine ⟨Delivery.handedOn (observe slotKey source contents[idx.toNat] idx.toNat, source),
      List.mem_map.mpr ⟨_, List.mem_iff_getElem?.mpr ⟨idx.toNat, ?_⟩, rfl⟩, rfl, ?_⟩
    · rw [List.getElem?_take, if_pos low, inOrder_getElem?, present]
      rfl
    · exact UInt32.ofNat_toNat

/-- Where the entries below a place have arrived and no other, the cursor is at the
place. -/
theorem cursor_of_arrived {arrived : List UInt32} {found : Option PohSlot}
    {events : List Essence} {count : Nat}
    (follows : Follows slotKey contents arrived found events)
    (settled : Settled slotKey (found.getD {})) (short : contents.length ≤ 2 ^ 32)
    (within : count < contents.length)
    (below : ∀ idx : UInt32, idx ∈ arrived ↔ idx.toNat < count) :
    (found.getD {}).nextExpectedIdx = UInt32.ofNat count := by
  have here : ∀ place ≤ count, (UInt32.ofNat place).toNat = place := by
    intro place low
    rw [UInt32.toNat_ofNat']
    omega
  have fresh : UInt32.ofNat count ∉ arrived := by
    rw [below, here count (Nat.le_refl _)]
    omega
  cases follows with
  | untouched absent none silent =>
    subst absent none
    by_contra apart
    have none' := (below 0).mpr
    have zero : count = 0 := by
      by_contra some'
      exact absurd (none' (Nat.pos_of_ne_zero some')) List.not_mem_nil
    exact apart (by rw [zero]; rfl)
  | reordering slot place held nonempty reordered =>
    subst held
    have low : place ≤ count := by
      have low := (reordered.place_of_fresh fresh).1
      rwa [here count (Nat.le_refl _)] at low
    by_contra apart
    have before : place < count := by
      refine Nat.lt_of_le_of_ne low fun same => apart ?_
      exact same ▸ reordered.cursor
    -- the entry at the cursor has arrived, but nothing is buffered there
    have arrived' := (below (UInt32.ofNat place)).mpr (by rw [here place low]; exact before)
    rcases (reordered.arrivals _).mp arrived' with earlier | waiting
    · rw [here place low] at earlier
      omega
    · have above := settled.quiet _ waiting
      rw [Option.getD_some, reordered.cursor] at above
      exact UInt32.lt_irrefl _ above
  | ended nonempty all closed replayed =>
    obtain ⟨idx, member, place⟩ := all count within
    have low := (below idx).mp member
    omega

/-- In order, nothing is ever buffered. -/
theorem firstInputs_undisturbed (cfg : Config)
    (distinct : (contents.map EntryContent.hash).Nodup) (short : contents.length ≤ 2 ^ 32)
    {count : Nat} (within : count ≤ contents.length) :
    EachAfter (Undisturbed cfg (onlySlot slotKey contents))
      (firstInputs slotKey source contents count) := by
  have delivers := (@inOrder_delivers slotKey source contents distinct short).merged
  rw [merged_inOrder distinct] at delivers
  induction count with
  | zero => exact eachAfter_nil _
  | succ count ih =>
    have before := ih (Nat.le_of_succ_le within)
    have present := List.getElem?_eq_getElem (show count < contents.length from within)
    rw [firstInputs_succ present, eachAfter_concat]
    refine ⟨before, ?_⟩
    have part : List.Sublist (received (firstInputs slotKey source contents count))
        ((inOrder slotKey source contents).map Delivery.handedOn) := by
      rw [received_firstInputs]
      exact (List.take_sublist _ _).map _
    have follows := follows_run _ (firstInputs_running count)
      (fun merged member => delivers.reports merged (part.subset member))
      (delivers.once.sublist (part.map _)) before slotKey
    rw [onlySlot, if_pos rfl] at follows
    have cursor := cursor_of_arrived follows
      (settled_getD slotKey (run_settled cfg _)) short within fun idx =>
        mem_arrivedAt_firstInputs short (Nat.le_of_succ_le within)
    intro above
    exact absurd (cursor ▸ above) (UInt32.lt_irrefl _)

/-- **A single source in order yields the replay of its slot.** -/
theorem singleSource_replays (cfg : Config)
    (distinct : (contents.map EntryContent.hash).Nodup) (short : contents.length ≤ 2 ^ 32) :
    essencesAt slotKey (run cfg (singleSource slotKey source contents)).2 =
      replayedEvents slotKey contents := by
  have delivers := (@inOrder_delivers slotKey source contents distinct short).merged
  have inputs : (merged (inOrder slotKey source contents)).map (fun entry => .receive entry 0) =
      firstInputs slotKey source contents contents.length := by
    rw [merged_inOrder distinct, List.map_map, firstInputs, List.take_of_length_le]
    · rfl
    · simp [inOrder]
  have handed : received (firstInputs slotKey source contents contents.length) =
      merged (inOrder slotKey source contents) := by
    rw [received_firstInputs, merged_inOrder distinct, List.take_of_length_le]
    simp [inOrder]
  have replays := run_replays (firstInputs slotKey source contents contents.length)
    (firstInputs_running _) (handed ▸ delivers)
    (firstInputs_undisturbed cfg distinct short (Nat.le_refl _)) 0 slotKey
  rw [onlySlot, if_pos rfl] at replays
  rw [singleSource, inputs, replays]

end Single

/-! ## Transparency -/

/-- **Two sources that deliver the entries of some slots in any order, with
duplicates, yield for every slot the events of a single source that delivers its
entries in order and once.** -/
theorem merge_transparent (cfg : Config) (block : Nat → List EntryContent)
    (deliveries : List Delivery) (delivers : DeliverBlocks block deliveries)
    (inputs : List Input) (running : ∀ now, Input.shutdown now ∉ inputs)
    (handedOver : received inputs = merged deliveries)
    (undisturbed : EachAfter (Undisturbed cfg block) inputs) (stoppedAt : Instant)
    (slotKey : Nat) (source : SourceKind) :
    essencesAt slotKey (run cfg (inputs ++ [.shutdown stoppedAt])).2 =
        essencesAt slotKey (run cfg (singleSource slotKey source (block slotKey))).2 ∧
      ∀ index hash tick hashes uncertain, .entry index hash tick hashes uncertain ∈
        essencesAt slotKey (run cfg (inputs ++ [.shutdown stoppedAt])).2 →
          uncertain = false := by
  have short : (block slotKey).length ≤ 2 ^ 32 := by
    by_contra long
    obtain ⟨delivery, _, _, place⟩ := delivers.complete slotKey (2 ^ 32) (Nat.lt_of_not_le long)
    have bound := delivery.1.entryIndex.toNat_lt
    omega
  rw [run_replays inputs running (handedOver ▸ delivers.merged) undisturbed stoppedAt slotKey,
    singleSource_replays cfg (delivers.distinct slotKey) short]
  exact ⟨rfl, fun _ _ _ _ _ member => replayedEvents_certain member⟩

/-- Slot 100 has a transaction entry and a tick. -/
def sampleBlock : Nat → List EntryContent :=
  onlySlot 100 [⟨Samples.hash 1, 10, 1⟩, ⟨Samples.hash 2, 20, 0⟩]

/-- The tick comes first, from Yellowstone, and then once more. -/
def swappedDeliveries : List Delivery :=
  [({ Samples.obs 100 1 20 0 2 with source := .yellowstone }, .yellowstone),
    (Samples.obs 100 0 10 1 1, .shredStream), (Samples.obs 100 1 20 0 2, .shredStream)]

theorem merge_transparent_swapped :
    essencesAt 100 (run (Samples.cfgWith 50000000)
      ((merged swappedDeliveries).map (fun entry => .receive entry 0) ++ [.shutdown 9])).2 =
    essencesAt 100 (run (Samples.cfgWith 50000000)
      (singleSource 100 .shredStream (sampleBlock 100))).2 := by
  have handedOver : received ((merged swappedDeliveries).map (fun entry => .receive entry 0)) =
      merged swappedDeliveries := by decide +kernel
  refine (merge_transparent _ sampleBlock swappedDeliveries ?_ _ ?_ handedOver ?_ 9 100
    .shredStream).1
  · constructor
    · intro slot
      unfold sampleBlock onlySlot
      split <;> decide +kernel
    · change ∀ delivery ∈ swappedDeliveries,
        (sampleBlock delivery.1.slot)[delivery.1.entryIndex.toNat]? = some delivery.1.content
      decide +kernel
    · intro slot place within
      unfold sampleBlock onlySlot at within
      split at within
      · next own =>
        subst own
        match place, within with
        | 0, _ => exact ⟨swappedDeliveries[1], by decide +kernel, by decide +kernel⟩
        | 1, _ => exact ⟨swappedDeliveries[0], by decide +kernel, by decide +kernel⟩
      · simp at within
    · change EachAfter _ ([] ++ [_] ++ [_] ++ [_])
      rw [eachAfter_concat, eachAfter_concat, eachAfter_concat]
      exact ⟨⟨⟨eachAfter_nil _, by decide⟩, by decide⟩, by decide⟩
  · simp
  · have two : (merged swappedDeliveries).map (fun entry => Input.receive entry 0) =
        [] ++ [.receive (Delivery.handedOn swappedDeliveries[0]) 0] ++
          [.receive (Delivery.handedOn swappedDeliveries[1]) 0] := by decide +kernel
    rw [two, eachAfter_concat, eachAfter_concat]
    refine ⟨⟨eachAfter_nil _, ?_⟩, ?_⟩
    · intro above
      decide +kernel
    · intro above
      exact absurd above (by decide +kernel)

end SenderAnalysis

import SenderAnalysis.FanOut.Merger.SlotIndex
import SenderAnalysis.FanOut.Samples
import SenderAnalysis.Foundations.Traces

/-!
# Every entry is handed on once

While an entry's slot is inside the window, the merger knows the entry exactly when
it has been delivered (`run_known`). When no delivery comes after its slot has left
the window, an entry is therefore new to the merger at its first delivery only, and
what the merger hands on is the first delivery of every entry, in order.

Table and index agree in any case. Listed out, they are the same entries.
-/

set_option autoImplicit false

namespace SenderAnalysis.Merger

open Std (ExtTreeMap)

/-- The highest slot seen. -/
def highestSlot (past : List Delivery) : Nat :=
  (past.map fun delivery => delivery.1.slot).foldl max 0

/-- No delivery is of a slot that has left the window. -/
def WithinWindow (deliveries : List Delivery) : Prop :=
  EachAfter (fun past delivery => delivery.1.slot ≥ highestSlot past - dedupWindowSlots) deliveries

/-- What is handed on for a delivery. -/
def Delivery.handedOn (delivery : Delivery) : MergedEntry := ⟨delivery.1, delivery.2⟩

/-- The entries listed in the index, slot by slot. -/
def indexedKeys (merger : State) : List (Nat × Hash) :=
  merger.slotIndex.toList.flatMap fun entry => entry.2.map fun hash => (entry.1, hash)

/-! ## Table and index, listed out -/

theorem mem_indexedKeys {merger : State} {key : Nat × Hash} :
    key ∈ indexedKeys merger ↔ key.2 ∈ listed merger key.1 := by
  simp only [indexedKeys, List.mem_flatMap, List.mem_map, listed]
  constructor
  · rintro ⟨entry, member, hash, present, rfl⟩
    have found : merger.slotIndex[entry.1]? = some entry.2 :=
      ExtTreeMap.mem_toList_iff_getElem?_eq_some.mp member
    simpa [found] using present
  · intro present
    cases found : merger.slotIndex[key.1]? with
    | none => simp [found] at present
    | some hashes =>
      rw [found] at present
      exact ⟨(key.1, hashes), ExtTreeMap.mem_toList_iff_getElem?_eq_some.mpr found, key.2,
        present, rfl⟩

theorem nodup_indexedKeys {merger : State} (indexed : Indexed merger) :
    (indexedKeys merger).Nodup := by
  rw [indexedKeys, List.nodup_flatMap]
  constructor
  · intro entry member
    have found : merger.slotIndex[entry.1]? = some entry.2 :=
      ExtTreeMap.mem_toList_iff_getElem?_eq_some.mp member
    have once := indexed.once entry.1
    rw [listed, found, Option.getD_some] at once
    exact once.map fun _ _ same => (Prod.mk.injEq _ _ _ _ ▸ same).2
  · have ordered := merger.slotIndex.ordered_keys_toList
    refine ordered.imp ?_
    intro first second before key here there
    obtain ⟨_, _, rfl⟩ := List.mem_map.mp here
    obtain ⟨_, _, same⟩ := List.mem_map.mp there
    have equal : second.1 = first.1 := (Prod.mk.inj same).1
    rw [equal] at before
    simp at before

/-- Table and index list the same entries, each once. -/
theorem Indexed.perm {merger : State} (indexed : Indexed merger) :
    (indexedKeys merger).Perm merger.state.keys := by
  rw [List.perm_ext_iff_of_nodup (nodup_indexedKeys indexed) merger.state.keys_nodup]
  intro key
  rw [mem_indexedKeys, indexed.same]
  exact AList.lookup_isSome

/-! ## What the merger knows -/

theorem highestSlot_concat (past : List Delivery) (delivery : Delivery) :
    highestSlot (past ++ [delivery]) = max (highestSlot past) delivery.1.slot := by
  simp [highestSlot]

/-- Inside the window the merger knows the entries that were delivered. -/
theorem run_known {deliveries : List Delivery} (inWindow : WithinWindow deliveries)
    {key : Nat × Hash} (recent : highestSlot deliveries ≤ key.1 + dedupWindowSlots) :
    ((runLoop deliveries).1.state.get key).isSome ↔ key ∈ deliveries.map Delivery.key := by
  induction deliveries using List.reverseRecOn with
  | nil => simp [runLoop]
  | append_singleton past delivery ih =>
    obtain ⟨before, _⟩ := eachAfter_concat.mp inWindow
    rw [highestSlot_concat] at recent
    have known := ih before (by omega)
    have kept : ¬ Expires (runLoop past).1 delivery.1.slot key.1 := by
      rintro ⟨_, past⟩
      omega
    rw [runLoop, runAll_concat]
    change ((step (runLoop past).1 delivery).1.state.get key).isSome ↔ _
    rw [step_get (run_indexed past), if_neg kept, List.map_append, List.mem_append, ← known]
    by_cases here : key = delivery.key
    · simp [here]
    · simp [here]

/-- **Inside the window, the merger hands on the first delivery of every entry.** -/
theorem merged_eq_firstOccurrences {deliveries : List Delivery}
    (inWindow : WithinWindow deliveries) :
    merged deliveries = (firstOccurrences Delivery.key deliveries).map Delivery.handedOn := by
  induction deliveries using List.reverseRecOn with
  | nil => rfl
  | append_singleton past delivery ih =>
    obtain ⟨before, recent⟩ := eachAfter_concat.mp inWindow
    have reachable : highestSlot past ≤ delivery.key.1 + dedupWindowSlots := by
      change highestSlot past ≤ delivery.1.slot + dedupWindowSlots
      omega
    have known := run_known before reachable
    rw [firstOccurrences_concat, List.map_append, ← ih before, merged, runLoop, runAll_concat,
      sent_append]
    change merged past ++ sent (step (runLoop past).1 delivery).2 = _
    rw [sent_step]
    by_cases old : delivery.key ∈ past.map Delivery.key
    · have remembered := known.mpr old
      rw [if_pos old, if_neg (Option.isSome_iff_ne_none.mp remembered)]
      rfl
    · have fresh : (runLoop past).1.state.get delivery.key = none := by simpa [old] using known
      rw [if_neg old, if_pos fresh]
      rfl

/-- **Table and index agree after every arrival, and every entry that arrives in time is
handed on exactly once, with the source and the data of its first arrival.** -/
theorem merger_exactlyOnce (deliveries : List Delivery) :
    (indexedKeys (runLoop deliveries).1).Perm (runLoop deliveries).1.state.keys ∧
      (WithinWindow deliveries → ∀ key,
        (merged deliveries).filter (fun entry => decide (entry.key = key)) =
          ((deliveries.find? fun delivery => decide (delivery.key = key)).map
            Delivery.handedOn).toList) := by
  refine ⟨(run_indexed deliveries).perm, fun inWindow key => ?_⟩
  have first := filter_firstOccurrences Delivery.key deliveries key
  rw [merged_eq_firstOccurrences inWindow, List.filter_map]
  change ((firstOccurrences Delivery.key deliveries).filter
    fun delivery => decide (delivery.key = key)).map Delivery.handedOn = _
  rw [first, Option.toList_map]

/-- An entry of slot 100 from both sources, then one of a later slot. -/
def sampleDeliveries : List Delivery :=
  [(Samples.obs 100 0 0 1 1, .shredStream), (Samples.obs 100 0 0 1 1, .yellowstone),
    (Samples.obs 350 0 0 1 2, .yellowstone)]

theorem merger_exactlyOnce_twoSources :
    (merged sampleDeliveries).filter (fun entry => decide (entry.key = (100, Samples.hash 1))) =
      [⟨Samples.obs 100 0 0 1 1, .shredStream⟩] := by
  have inWindow : WithinWindow sampleDeliveries := by
    change EachAfter _ ([] ++ [_] ++ [_] ++ [_])
    rw [eachAfter_concat, eachAfter_concat, eachAfter_concat]
    exact ⟨⟨⟨eachAfter_nil _, by decide⟩, by decide⟩, by decide⟩
  have first := (merger_exactlyOnce sampleDeliveries).2 inWindow (100, Samples.hash 1)
  exact first.trans (by decide +kernel)

end SenderAnalysis.Merger

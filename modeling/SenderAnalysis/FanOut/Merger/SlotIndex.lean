import SenderAnalysis.FanOut.Merger.Model

/-!
# The merger's table and its index

What the merger knows of an entry is in a table under the entry's slot and hash, and
an index lists the hashes of every slot, so that an eviction finds the entries of an
expired slot. Table and index are written at different places. Here it is shown that
they list the same entries, each once (`Indexed`), whatever arrives.

By that an eviction takes the entries of the expired slots out of both and leaves the
others alone, and a step is known by its lookups: the entry that arrives is sighted
once more, and what fell out of the window is forgotten (`step_get`).
-/

set_option autoImplicit false

namespace SenderAnalysis

open Std (ExtTreeMap)

/-- What tells one entry from another. -/
def EntryObservation.key (observation : EntryObservation) : Nat × Hash :=
  (observation.slot, observation.entryHash)

def MergedEntry.key (entry : MergedEntry) : Nat × Hash := entry.observation.key

namespace Merger

def Delivery.key (delivery : Delivery) : Nat × Hash := delivery.1.key

/-- The hashes listed under a slot. -/
def listed (merger : State) (slot : Nat) : List Hash := (merger.slotIndex[slot]?).getD []

/-- Table and index hold the same entries, each once. -/
structure Indexed (merger : State) : Prop where
  same : ∀ key : Nat × Hash, key.2 ∈ listed merger key.1 ↔ (merger.state.get key).isSome
  once : ∀ slot, (listed merger slot).Nodup

theorem indexed_initial : Indexed {} where
  same key := by simp [listed]
  once slot := by simp [listed]

/-! ## Evictions -/

section Evictions

variable {merger : State}

theorem evictSlot_maxSlot (slot : Nat) : (evictSlot merger slot).maxSlot = merger.maxSlot := by
  unfold evictSlot
  split <;> rfl

theorem evictSlot_listed (slot other : Nat) :
    listed (evictSlot merger slot) other = if other = slot then [] else listed merger other := by
  unfold evictSlot
  split
  · next absent =>
    split
    · next here => simp [listed, here, absent]
    · rfl
  · next hashes present =>
    by_cases here : other = slot
    · simp [listed, here]
    · have apart : ¬ slot = other := fun same => here same.symm
      simp [listed, ExtTreeMap.getElem?_erase, here, apart]

/-- An evicted slot keeps no entry, and the other slots keep theirs. -/
theorem evictSlot_get (indexed : Indexed merger) (slot : Nat) (key : Nat × Hash) :
    (evictSlot merger slot).state.get key =
      if key.1 = slot then none else merger.state.get key := by
  have known := indexed.same key
  unfold evictSlot
  split
  · next absent =>
    split
    · next here =>
      rw [listed, here, absent] at known
      simpa using known
    · rfl
  · next hashes present =>
    have removed : hashes.foldl (fun table hash => table.remove (slot, hash)) merger.state =
        (hashes.map fun hash => (slot, hash)).foldl HashTable.remove merger.state := by
      rw [List.foldl_map]
    rw [removed, HashTable.get_foldl_remove]
    by_cases here : key.1 = slot
    · subst here
      rw [listed, present, Option.getD_some] at known
      by_cases present' : key.2 ∈ hashes
      · have member : key ∈ hashes.map fun hash => (key.1, hash) :=
          List.mem_map.mpr ⟨key.2, present', rfl⟩
        rw [if_pos member, if_pos rfl]
      · have unknown : merger.state.get key = none := by simpa [present'] using known
        simp [unknown]
    · have apart : key ∉ hashes.map fun hash => (slot, hash) := by
        intro member
        obtain ⟨hash, _, same⟩ := List.mem_map.mp member
        exact here (by rw [← same])
      rw [if_neg apart, if_neg here]

theorem Indexed.evictSlot (indexed : Indexed merger) (slot : Nat) :
    Indexed (evictSlot merger slot) where
  same key := by
    rw [evictSlot_listed, evictSlot_get indexed]
    split
    · simp
    · exact indexed.same key
  once other := by
    rw [evictSlot_listed]
    split
    · exact List.nodup_nil
    · exact indexed.once other

/-- Evicting a list of slots, one after the other. -/
theorem foldl_evictSlot (indexed : Indexed merger) (slots : List Nat) :
    Indexed (slots.foldl Merger.evictSlot merger) ∧
      (slots.foldl Merger.evictSlot merger).maxSlot = merger.maxSlot ∧
      ∀ key, (slots.foldl Merger.evictSlot merger).state.get key =
        if key.1 ∈ slots then none else merger.state.get key := by
  induction slots generalizing merger with
  | nil => exact ⟨indexed, rfl, by simp⟩
  | cons slot rest ih =>
    obtain ⟨kept, highest, found⟩ := ih (indexed.evictSlot slot)
    refine ⟨kept, highest.trans (evictSlot_maxSlot slot), ?_⟩
    intro key
    rw [List.foldl_cons, found, evictSlot_get indexed]
    by_cases later : key.1 ∈ rest
    · simp [later]
    · by_cases here : key.1 = slot <;> simp [later, here]

/-! ## The window -/

/-- The arrival of `slot` moves the window past an old slot. -/
def Expires (merger : State) (slot old : Nat) : Prop :=
  merger.maxSlot < slot ∧ old + dedupWindowSlots < slot

instance (merger : State) (slot old : Nat) : Decidable (Expires merger slot old) :=
  inferInstanceAs (Decidable (_ ∧ _))

/-- Moving the window forgets the slots that fall out of it and no other. -/
theorem advanceMaxSlot_spec (indexed : Indexed merger) (slot : Nat) :
    Indexed (advanceMaxSlot merger slot) ∧
      (advanceMaxSlot merger slot).maxSlot = max merger.maxSlot slot ∧
      ∀ key, (advanceMaxSlot merger slot).state.get key =
        if Expires merger slot key.1 then none else merger.state.get key := by
  unfold advanceMaxSlot
  by_cases higher : slot > merger.maxSlot
  · have raised : Indexed { merger with maxSlot := slot } := ⟨indexed.same, indexed.once⟩
    have highest : slot = max merger.maxSlot slot := by omega
    rw [if_pos higher]
    by_cases full : slot > dedupWindowSlots
    · obtain ⟨kept, same, found⟩ := foldl_evictSlot raised
        (merger.slotIndex.keys.takeWhile (· < slot - dedupWindowSlots))
      rw [if_pos full]
      refine ⟨kept, same.trans highest, ?_⟩
      intro key
      have sorted : merger.slotIndex.keys.Pairwise (· < ·) := OrderedMap.sorted_keys
      rw [found key]
      simp only [OrderedMap.mem_takeWhile_lt sorted, ExtTreeMap.mem_keys]
      by_cases expired : Expires merger slot key.1
      · have below : key.1 < slot - dedupWindowSlots := by
          have past := expired.2
          omega
        by_cases present : key.1 ∈ merger.slotIndex
        · rw [if_pos ⟨present, below⟩, if_pos expired]
        · have unlisted : listed merger key.1 = [] := by
            simp [listed, ExtTreeMap.getElem?_eq_none present]
          have unknown : merger.state.get key = none := by
            simpa [unlisted] using indexed.same key
          simp [unknown]
      · have inside : ¬ key.1 < slot - dedupWindowSlots := by
          intro below
          exact expired ⟨higher, by omega⟩
        rw [if_neg fun both => inside both.2, if_neg expired]
    · rw [if_neg full]
      refine ⟨raised, highest, ?_⟩
      intro key
      have inside : ¬ Expires merger slot key.1 := by
        rintro ⟨_, past⟩
        omega
      rw [if_neg inside]
  · rw [if_neg higher]
    refine ⟨indexed, by omega, ?_⟩
    intro key
    have inside : ¬ Expires merger slot key.1 := fun expired => higher expired.1
    rw [if_neg inside]

end Evictions

/-! ## Sightings -/

/-- What is remembered of an entry after one more sighting. -/
def sighted (known : Option DedupState) (delivery : Delivery) : DedupState :=
  match known with
  | none => .primary delivery.2 delivery.1.observedAt
  | some (.primary firstSource firstSeenAt) =>
      if firstSource ≠ delivery.2 then .confirmed else .primary firstSource firstSeenAt
  | some .confirmed => .confirmed

section Sightings

variable {merger : State}

/-- What the three kinds of sightings do: a first one, one by the other source, and
any other. -/
theorem deduplicate_cases (merger : State) (delivery : Delivery) :
    (merger.state.get delivery.key = none ∧
      deduplicate merger delivery.1 delivery.2 =
        ({ merger with
            state := merger.state.insert delivery.key (sighted none delivery)
            slotIndex := merger.slotIndex.insert delivery.1.slot
              (listed merger delivery.1.slot ++ [delivery.1.entryHash]) },
          [countFirst delivery.2, .trySend ⟨delivery.1, delivery.2⟩])) ∨
    (∃ firstSource firstSeenAt,
      merger.state.get delivery.key = some (.primary firstSource firstSeenAt) ∧
      firstSource ≠ delivery.2 ∧
      deduplicate merger delivery.1 delivery.2 =
        ({ merger with state := merger.state.insert delivery.key .confirmed },
          recordConfirmLatency (min
            (saturatingDurationSince delivery.1.observedAt firstSeenAt) (2 ^ 64 - 1)))) ∨
    ∃ remembered,
      merger.state.get delivery.key = some remembered ∧
      sighted (some remembered) delivery = remembered ∧
      deduplicate merger delivery.1 delivery.2 = (merger, [.fetchAdd .duplicates 1]) := by
  cases known : merger.state.get delivery.key with
  | none =>
    have known' : merger.state.get (delivery.1.slot, delivery.1.entryHash) = none := known
    refine .inl ⟨rfl, ?_⟩
    simp only [deduplicate, known']
    rfl
  | some remembered =>
    have known' : merger.state.get (delivery.1.slot, delivery.1.entryHash) = some remembered :=
      known
    cases remembered with
    | confirmed =>
      refine .inr (.inr ⟨_, rfl, rfl, ?_⟩)
      simp only [deduplicate, known']
    | primary firstSource firstSeenAt =>
      by_cases other : firstSource ≠ delivery.2
      · refine .inr (.inl ⟨_, _, rfl, other, ?_⟩)
        simp only [deduplicate, known', if_pos other]
        rfl
      · refine .inr (.inr ⟨_, rfl, ?_, ?_⟩)
        · simp only [sighted, if_neg other]
        · simp only [deduplicate, known', if_neg other]

theorem deduplicate_get (delivery : Delivery) (key : Nat × Hash) :
    (deduplicate merger delivery.1 delivery.2).1.state.get key =
      if key = delivery.key then some (sighted (merger.state.get key) delivery)
      else merger.state.get key := by
  rcases deduplicate_cases merger delivery with
    ⟨unknown, result⟩ | ⟨firstSource, firstSeenAt, known, other, result⟩ |
      ⟨remembered, known, same, result⟩
  · rw [result, HashTable.get_insert]
    split
    · next here => rw [here, unknown]
    · rfl
  · rw [result, HashTable.get_insert]
    split
    · next here => rw [here, known, sighted, if_pos other]
    · rfl
  · rw [result]
    split
    · next here => rw [here, known, same]
    · rfl

theorem deduplicate_maxSlot (delivery : Delivery) :
    (deduplicate merger delivery.1 delivery.2).1.maxSlot = merger.maxSlot := by
  rcases deduplicate_cases merger delivery with
    ⟨_, result⟩ | ⟨_, _, _, _, result⟩ | ⟨_, _, _, result⟩ <;> rw [result]

theorem deduplicate_listed (delivery : Delivery) (slot : Nat) :
    listed (deduplicate merger delivery.1 delivery.2).1 slot =
      if slot = delivery.1.slot ∧ merger.state.get delivery.key = none then
        listed merger slot ++ [delivery.1.entryHash]
      else listed merger slot := by
  rcases deduplicate_cases merger delivery with
    ⟨unknown, result⟩ | ⟨firstSource, firstSeenAt, known, _, result⟩ |
    ⟨remembered, known, _, result⟩
  · rw [result]
    by_cases here : slot = delivery.1.slot
    · subst here
      simp [listed, unknown]
    · have apart : ¬ delivery.1.slot = slot := fun same => here same.symm
      simp [listed, ExtTreeMap.getElem?_insert, here, apart]
  · rw [result]
    simp [listed, known]
  · rw [result]
    simp [known]

theorem Indexed.deduplicate (indexed : Indexed merger) (delivery : Delivery) :
    Indexed (deduplicate merger delivery.1 delivery.2).1 where
  same key := by
    rw [deduplicate_listed, deduplicate_get]
    by_cases here : key = delivery.key
    · subst here
      rw [if_pos rfl]
      by_cases fresh : merger.state.get delivery.key = none
      · have added : delivery.key.1 = delivery.1.slot ∧ merger.state.get delivery.key = none :=
          ⟨rfl, fresh⟩
        rw [if_pos added]
        simp [Delivery.key, EntryObservation.key]
      · rw [if_neg fun both => fresh both.2, indexed.same]
        simpa using Option.isSome_iff_ne_none.mpr fresh
    · rw [if_neg here, ← indexed.same key]
      split
      · next added =>
        have otherHash : key.2 ≠ delivery.1.entryHash := by
          intro equal
          exact here (Prod.ext added.1 equal)
        simp [otherHash]
      · rfl
  once slot := by
    rw [deduplicate_listed]
    split
    · next added =>
      have unlisted : delivery.1.entryHash ∉ listed merger slot := by
        have same := indexed.same delivery.key
        rw [added.2] at same
        rw [added.1]
        change delivery.key.2 ∉ listed merger delivery.key.1
        simpa using same
      rw [← List.concat_eq_append]
      exact (indexed.once slot).concat unlisted
    · exact indexed.once slot

/-! ## One arrival -/

theorem Indexed.step (indexed : Indexed merger) (delivery : Delivery) :
    Indexed (step merger delivery).1 :=
  (advanceMaxSlot_spec (indexed.deduplicate delivery) delivery.1.slot).1

/-- **An arrival sights its entry once more and forgets what fell out of the window.** -/
theorem step_get (indexed : Indexed merger) (delivery : Delivery) (key : Nat × Hash) :
    (step merger delivery).1.state.get key =
      if Expires merger delivery.1.slot key.1 then none
      else if key = delivery.key then some (sighted (merger.state.get key) delivery)
      else merger.state.get key := by
  have moved := (advanceMaxSlot_spec (indexed.deduplicate delivery) delivery.1.slot).2.2 key
  simp only [Expires, deduplicate_maxSlot, deduplicate_get] at moved
  exact moved

/-- A delivery is handed on when nothing is remembered of its entry. -/
theorem sent_step (merger : State) (delivery : Delivery) :
    sent (step merger delivery).2 =
      if merger.state.get delivery.key = none then [⟨delivery.1, delivery.2⟩] else [] := by
  have received : ∀ rest : List MergerEffect,
      sent (countReceived delivery.2 :: rest) = sent rest := by
    intro rest
    cases delivery.2 <;> rfl
  have counted : ∀ rest : List MergerEffect,
      sent (countFirst delivery.2 :: rest) = sent rest := by
    intro rest
    cases delivery.2 <;> rfl
  change sent (countReceived delivery.2 :: (deduplicate merger delivery.1 delivery.2).2) = _
  rw [received]
  rcases deduplicate_cases merger delivery with
    ⟨unknown, result⟩ | ⟨firstSource, firstSeenAt, known, _, result⟩ |
    ⟨remembered, known, _, result⟩
  · rw [result, counted, if_pos unknown]
    rfl
  · rw [result, known]
    rfl
  · rw [result, known]
    rfl

end Sightings

theorem run_indexed (deliveries : List Delivery) : Indexed (runLoop deliveries).1 :=
  runAll_invariant (fun _ delivery indexed => indexed.step delivery) indexed_initial deliveries

end Merger

end SenderAnalysis

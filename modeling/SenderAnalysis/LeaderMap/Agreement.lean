import SenderAnalysis.LeaderMap.Model
import Mathlib.Data.List.Basic

/-!
# The two leader maps

Both programs place the indices of the schedule after a first slot. The crate computes
the first slot of the epoch from the slot of the fetch and its index; the analysis takes
the slot of the fetch itself. The maps agree on the epoch exactly when the two are the
same slot, that is when the snapshot was fetched at the first slot of the epoch
(`leaderMaps_agree_iff`).
-/

set_option autoImplicit false

namespace SenderAnalysis.LeaderMap

open Std (ExtTreeMap)

/-! ## One schedule, two bases -/

/-- The schedule as pairs of a leader and an index, in the order both programs visit
them. -/
def assignments (schedule : LeaderSchedule) : List (String × Nat) :=
  schedule.toList.flatMap fun (identity, idxs) => idxs.map fun idx => (identity, idx)

/-- The leader of the index, the last one if several claim it. -/
def leaderOf (schedule : LeaderSchedule) (idx : Nat) : Option String :=
  ((assignments schedule).reverse.find? fun assigned => assigned.2 = idx).map Prod.fst

/-- The leader of a slot when the indices are placed after a base. -/
def leaderAfter (schedule : LeaderSchedule) (base slot : Nat) : Option String :=
  if base ≤ slot then leaderOf schedule (slot - base) else none

/-- Finding the last assignment to a slot is finding the last one to its index. -/
theorem find_assigned (schedule : LeaderSchedule) (base slot : Nat) :
    ((assignments schedule).reverse.find? fun assigned => slot = base + assigned.2).map
      Prod.fst = leaderAfter schedule base slot := by
  by_cases within : base ≤ slot
  · rw [leaderAfter, if_pos within, leaderOf]
    congr 2
    funext assigned
    have same : slot = base + assigned.2 ↔ assigned.2 = slot - base := by omega
    simp only [same]
  · rw [leaderAfter, if_neg within, Option.map_eq_none_iff, List.find?_eq_none]
    intro assigned _
    have below : ¬ slot = base + assigned.2 := by omega
    simpa using below

/-- What the snapshot says of the leader of a slot, with the last validator of the name. -/
def ledBy (snap : EpochSnapshot) (slot : Nat) : Option SlotEntry :=
  (leaderAfter snap.schedule snap.epoch.epochFirstSlot slot).map fun identity =>
    slotEntry (snap.validators.reverse.find? fun v => identity = v.identity) slot identity

theorem byIdentity_getElem? (validators : List ValidatorInfo) (identity : String) :
    (byIdentity validators)[identity]? =
      validators.reverse.find? fun v => identity = v.identity := by
  have written : ∀ (map : ExtTreeMap String ValidatorInfo) v key,
      (map.insert v.identity v)[key]? = if key = v.identity then some (id v) else map[key]? := by
    intro map v key
    rw [ExtTreeMap.getElem?_insert]
    by_cases same : key = v.identity
    · simp [same]
    · simp [same, Ne.symm same]
  have blank : ∀ key : String, (∅ : ExtTreeMap String ValidatorInfo)[key]? = none := by simp
  have filled := HashTable.lookup_foldl
    (fun (map : ExtTreeMap String ValidatorInfo) key => map[key]?) ValidatorInfo.identity id written
    blank validators identity
  rwa [Option.map_id] at filled

/-- **The slot map holds an entry for every slot that has a leader.** -/
theorem buildSlotMap_getElem? (snap : EpochSnapshot) (slot : Nat) :
    (buildSlotMap snap)[slot]? = ledBy snap slot := by
  let entryOf (assigned : String × Nat) : SlotEntry :=
    slotEntry (byIdentity snap.validators)[assigned.1]?
      (snap.epoch.epochFirstSlot + assigned.2) assigned.1
  let write (out : ExtTreeMap Nat SlotEntry) (assigned : String × Nat) :=
    out.insert (snap.epoch.epochFirstSlot + assigned.2) (entryOf assigned)
  have flat : buildSlotMap snap = (assignments snap.schedule).foldl write ∅ := by
    rw [assignments, List.foldl_flatMap, buildSlotMap]
    congr 1
    funext out assigned
    rw [List.foldl_map]
  have written : ∀ out assigned key, (write out assigned)[key]? =
      if key = snap.epoch.epochFirstSlot + assigned.2 then some (entryOf assigned)
      else out[key]? := by
    intro out assigned key
    simp only [write, ExtTreeMap.getElem?_insert, Std.compare_eq_iff_eq]
    by_cases same : key = snap.epoch.epochFirstSlot + assigned.2
    · simp [same]
    · simp [same, Ne.symm same]
  have blank : ∀ key : Nat, (∅ : ExtTreeMap Nat SlotEntry)[key]? = none := by simp
  have filled := HashTable.lookup_foldl (fun (out : ExtTreeMap Nat SlotEntry) key => out[key]?)
    (fun assigned => snap.epoch.epochFirstSlot + assigned.2) entryOf written blank
    (assignments snap.schedule) slot
  rw [flat, filled, ledBy, ← find_assigned, Option.map_map]
  refine Option.map_congr fun assigned found => ?_
  have own : slot = snap.epoch.epochFirstSlot + assigned.2 := by
    simpa using List.find?_some found
  rw [Function.comp_apply, own, ← byIdentity_getElem?]

/-- The crate places the indices after the first slot of the epoch. -/
theorem buildSlotMap_identity (snap : EpochSnapshot) (slot : Nat) :
    (buildSlotMap snap)[slot]?.map SlotEntry.identity =
      leaderAfter snap.schedule snap.epoch.epochFirstSlot slot := by
  rw [buildSlotMap_getElem?, ledBy, Option.map_map]
  exact congrFun Option.map_id _

/-- The analysis places them after the slot of the fetch. -/
theorem leaderMaps_slotToId (snap : EpochSnapshot) (slot : Nat) :
    (leaderMaps snap.toJson).slotToId.get slot =
      leaderAfter snap.schedule snap.epoch.absoluteSlot slot := by
  let write (slotToId : HashTable Nat String) (assigned : String × Nat) :=
    slotToId.insert (snap.epoch.absoluteSlot + assigned.2) assigned.1
  have flat : (leaderMaps snap.toJson).slotToId =
      (assignments snap.schedule).foldl write .empty := by
    rw [assignments, List.foldl_flatMap]
    simp only [leaderMaps, EpochSnapshot.toJson]
    congr 1
    funext slotToId assigned
    rw [List.foldl_map]
  rw [flat, ← find_assigned]
  exact HashTable.lookup_foldl HashTable.get
    (fun assigned => snap.epoch.absoluteSlot + assigned.2) Prod.fst
    (fun _ _ _ => HashTable.get_insert ..) HashTable.get_empty (assignments snap.schedule) slot

/-! ## When they agree -/

/-- Every index of the epoch has a leader. -/
def Covers (snap : EpochSnapshot) : Prop :=
  ∀ idx < snap.epoch.slotsInEpoch, ∃ (identity : String) (idxs : List Nat),
    snap.schedule[identity]? = some idxs ∧ idx ∈ idxs

theorem leaderOf_isSome {schedule : LeaderSchedule} {idx : Nat} {identity : String}
    {idxs : List Nat} (led : schedule[identity]? = some idxs) (member : idx ∈ idxs) :
    (leaderOf schedule idx).isSome := by
  have assigned : (identity, idx) ∈ assignments schedule :=
    List.mem_flatMap.mpr ⟨(identity, idxs), ExtTreeMap.mem_toList_iff_getElem?_eq_some.mpr led,
      List.mem_map.mpr ⟨idx, member, rfl⟩⟩
  rw [leaderOf, Option.isSome_map, List.find?_isSome]
  exact ⟨(identity, idx), List.mem_reverse.mpr assigned, by simp⟩

/-- The two maps name the same leader for every slot of the epoch. -/
def MapsAgree (snap : EpochSnapshot) : Prop :=
  ∀ slot, snap.epoch.epochFirstSlot ≤ slot →
    slot < snap.epoch.epochFirstSlot + snap.epoch.slotsInEpoch →
      (leaderMaps snap.toJson).slotToId.get slot =
        (buildSlotMap snap)[slot]?.map SlotEntry.identity

/-- **The two maps agree exactly when the snapshot was fetched at the first slot of the
epoch**, or the epoch has no slots. -/
theorem leaderMaps_agree_iff (snap : EpochSnapshot)
    (fetched : snap.epoch.slotIndex ≤ snap.epoch.absoluteSlot) (covers : Covers snap) :
    MapsAgree snap ↔ snap.epoch.slotIndex = 0 ∨ snap.epoch.slotsInEpoch = 0 := by
  constructor
  · intro agree
    by_contra shifted
    obtain ⟨later, nonempty⟩ := not_or.mp shifted
    have first := agree snap.epoch.epochFirstSlot le_rfl (by omega)
    rw [leaderMaps_slotToId, buildSlotMap_identity] at first
    have before : ¬ snap.epoch.absoluteSlot ≤ snap.epoch.epochFirstSlot := by
      unfold EpochInfo.epochFirstSlot
      omega
    obtain ⟨identity, idxs, led, member⟩ := covers 0 (by omega)
    have known := leaderOf_isSome led member
    simp only [leaderAfter, before, if_false, le_refl, if_true, Nat.sub_self] at first
    simp [← first] at known
  · intro same slot low high
    rcases same with start | none'
    · have base : snap.epoch.epochFirstSlot = snap.epoch.absoluteSlot := by
        simp [EpochInfo.epochFirstSlot, start]
      rw [leaderMaps_slotToId, buildSlotMap_identity, base]
    · omega

def sampleSchedule : LeaderSchedule := (∅ : LeaderSchedule).insert "A" [0] |>.insert "B" [1]

/-- An epoch of two slots that starts at slot 100, fetched at an index. -/
def sampleSnapshot (slotIndex : Nat) : EpochSnapshot where
  epoch := {
    epoch := 1
    absoluteSlot := 100 + slotIndex
    slotIndex := slotIndex
    slotsInEpoch := 2 }
  validators := []
  schedule := sampleSchedule

theorem sampleSnapshot_covers (slotIndex : Nat) : Covers (sampleSnapshot slotIndex) := by
  have first : sampleSchedule["A"]? = some [0] := by decide +kernel
  have second : sampleSchedule["B"]? = some [1] := by decide +kernel
  intro idx within
  have cases : idx = 0 ∨ idx = 1 := by
    have bound : idx < 2 := within
    omega
  rcases cases with rfl | rfl
  · exact ⟨"A", [0], first, by simp⟩
  · exact ⟨"B", [1], second, by simp⟩

/-- Fetched at the second slot, slot 101 goes to the leader of slot 100. -/
theorem sampleSnapshot_shifted :
    ¬ MapsAgree (sampleSnapshot 1) ∧
      (leaderMaps (sampleSnapshot 1).toJson).slotToId.get 101 = some "A" ∧
      (buildSlotMap (sampleSnapshot 1))[101]?.map SlotEntry.identity = some "B" := by
  have analysis : (leaderMaps (sampleSnapshot 1).toJson).slotToId.get 101 = some "A" := by
    decide +kernel
  have crate : (buildSlotMap (sampleSnapshot 1))[101]?.map SlotEntry.identity = some "B" := by
    decide +kernel
  refine ⟨fun agree => ?_, analysis, crate⟩
  have same := agree 101 (by decide) (by decide)
  rw [analysis, crate] at same
  simp at same

/-- Fetched at the first slot of the epoch, the two maps agree. -/
theorem leaderMaps_agree_sample : MapsAgree (sampleSnapshot 0) :=
  (leaderMaps_agree_iff (sampleSnapshot 0) (by decide) (sampleSnapshot_covers 0)).mpr (.inl rfl)

end SenderAnalysis.LeaderMap

import SenderAnalysis.EntrySources.Observation
import SenderAnalysis.LeaderMap.SlotRanges
import Mathlib.Data.List.Find

/-!
# The leader cache of the benches

The entry comparator and the tick-trigger bench ask the RPC node for the leader schedule of the
current epoch when they start, and place its indices after the first slot of the epoch, which
they compute from the current slot. The leader map places the same indices after the first slot
that the RPC node's epoch info gives.

The RPC node's schedule is a hash map, so its leaders come in any order. If no slot has two
leaders, the order does not matter: the cache and the leader map name the same leader for every
slot, whenever in the epoch the two were fetched, and the cache knows no leader outside the
epoch (`leaderCache_agrees`).
-/

set_option autoImplicit false

namespace SenderAnalysis.LeaderMap

/-- How many slots the benches take an epoch to have. -/
def slotsPerEpoch : Nat := 432000

/-- Why a bench does not start. -/
inductive LeaderCacheError (ε : Type) where
  | rpc (error : ε)
  | emptyLeaderSchedule
  | invalidPubkey (leader : String)
deriving DecidableEq, Repr

section FromRpc

variable {ε : Type} (pubkeyFromStr : String → Option Pubkey)

/-- Place the indices of one leader after another. -/
def placeLeaders (epochFirstSlot : Nat) :
    HashTable Nat Pubkey → List (String × List Nat) →
      Except (LeaderCacheError ε) (HashTable Nat Pubkey)
  | map, [] => .ok map
  | map, (leaderStr, slots) :: rest =>
      match pubkeyFromStr leaderStr with
      | none => .error (.invalidPubkey leaderStr)
      | some bytes =>
          placeLeaders epochFirstSlot
            (slots.foldl (fun map off => map.insert (epochFirstSlot + off) bytes) map) rest

/-- The cache for the epoch of the current slot, from what the RPC node answers. -/
def fromRpc (answer : Except ε (Option (List (String × List Nat)))) (currentSlot : Nat) :
    Except (LeaderCacheError ε) (HashTable Nat Pubkey) :=
  match answer with
  | .error error => .error (.rpc error)
  | .ok none => .error .emptyLeaderSchedule
  | .ok (some raw) =>
      placeLeaders pubkeyFromStr (currentSlot - currentSlot % slotsPerEpoch) .empty raw

end FromRpc

/-! ## The leaders in any order -/

/-- The schedule as pairs of a leader and an index, in the order of the RPC node. -/
def assignedIn (raw : List (String × List Nat)) : List (String × Nat) :=
  raw.flatMap fun (identity, idxs) => idxs.map fun idx => (identity, idx)

section Placed

variable {ε : Type} {pubkeyFromStr : String → Option Pubkey} {epochFirstSlot : Nat}

/-- What is placed for one leader. -/
theorem placeSlots_get {leaderStr : String} {bytes : Pubkey}
    (decodes : pubkeyFromStr leaderStr = some bytes) (slots : List Nat)
    (map : HashTable Nat Pubkey) (slot : Nat) :
    (slots.foldl (fun map off => map.insert (epochFirstSlot + off) bytes) map).get slot =
      match (slots.map fun idx => (leaderStr, idx)).reverse.find? fun assigned =>
        slot = epochFirstSlot + assigned.2 with
      | some assigned => pubkeyFromStr assigned.1
      | none => map.get slot := by
  induction slots using List.reverseRecOn with
  | nil => rfl
  | append_singleton slots off ih =>
    rw [List.foldl_concat, HashTable.get_insert, ih, List.map_append, List.map_singleton,
      List.reverse_concat, List.find?_cons]
    by_cases here : slot = epochFirstSlot + off <;> simp [here, decodes]

/-- The cache holds the last leader that was placed at a slot. -/
theorem placeLeaders_get {raw : List (String × List Nat)} {map cache : HashTable Nat Pubkey}
    (placed : (placeLeaders pubkeyFromStr epochFirstSlot map raw :
      Except (LeaderCacheError ε) (HashTable Nat Pubkey)) = .ok cache) (slot : Nat) :
    cache.get slot =
      match (assignedIn raw).reverse.find? fun assigned => slot = epochFirstSlot + assigned.2 with
      | some assigned => pubkeyFromStr assigned.1
      | none => map.get slot := by
  induction raw generalizing map with
  | nil =>
    obtain rfl := Except.ok.inj placed
    rfl
  | cons first rest ih =>
    obtain ⟨leaderStr, slots⟩ := first
    rw [placeLeaders] at placed
    split at placed
    · cases placed
    · next bytes decodes =>
      have front : assignedIn ((leaderStr, slots) :: rest) =
          (slots.map fun idx => (leaderStr, idx)) ++ assignedIn rest := rfl
      rw [ih placed, front, List.reverse_append, List.find?_append]
      cases (assignedIn rest).reverse.find? fun assigned =>
        decide (slot = epochFirstSlot + assigned.2) with
      | some assigned => rfl
      | none => exact placeSlots_get decodes slots map slot

end Placed

/-- No slot has two leaders. -/
def Unique (schedule : LeaderSchedule) : Prop := ((assignments schedule).map Prod.snd).Nodup

/-- Without a slot that has two leaders, the leaders may come in any order. -/
theorem find_assigned_perm {schedule : LeaderSchedule} (unique : Unique schedule)
    {raw : List (String × List Nat)} (same : raw.Perm schedule.toList) (base slot : Nat) :
    (assignedIn raw).reverse.find? (fun assigned => slot = base + assigned.2) =
      (assignments schedule).reverse.find? fun assigned => slot = base + assigned.2 := by
  have assigned : (assignments schedule).Perm (assignedIn raw) := (same.flatMap_right _).symm
  have reversed := (List.reverse_perm _).trans (assigned.trans (List.reverse_perm _).symm)
  refine (List.find?_eq_find?_of_perm reversed ?_).symm
  rintro first ⟨member, here⟩ second ⟨member', here'⟩
  refine List.inj_on_of_nodup_map unique (List.mem_reverse.mp member)
    (List.mem_reverse.mp member') ?_
  have one := of_decide_eq_true here
  have other := of_decide_eq_true here'
  omega

/-! ## One leader in both -/

/-- The first slot of the epoch, from any slot of it. -/
theorem epochFirstSlot_eq {info : EpochInfo} {currentSlot : Nat}
    (aligned : info.slotIndex = info.absoluteSlot % slotsPerEpoch)
    (sameEpoch : currentSlot / slotsPerEpoch = info.absoluteSlot / slotsPerEpoch) :
    currentSlot - currentSlot % slotsPerEpoch = info.epochFirstSlot := by
  rw [EpochInfo.epochFirstSlot, aligned]
  unfold slotsPerEpoch at sameEpoch ⊢
  omega

/-- **The benches and the leader map name the same leaders.** Whenever in the epoch the two are
fetched, and in whatever order the RPC node lists the leaders, the cache of a bench holds the
leader of the slot map at every slot, and nothing outside the epoch. -/
theorem leaderCache_agrees {ε : Type} (pubkeyFromStr : String → Option Pubkey)
    (snap : EpochSnapshot) (unique : Unique snap.schedule)
    (within : ∀ assigned ∈ assignments snap.schedule, assigned.2 < slotsPerEpoch)
    (aligned : snap.epoch.slotIndex = snap.epoch.absoluteSlot % slotsPerEpoch)
    (currentSlot : Nat)
    (sameEpoch : currentSlot / slotsPerEpoch = snap.epoch.absoluteSlot / slotsPerEpoch)
    (raw : List (String × List Nat)) (same : raw.Perm snap.schedule.toList)
    (cache : HashTable Nat Pubkey)
    (built : fromRpc pubkeyFromStr (.ok (some raw) : Except ε _) currentSlot = .ok cache)
    (slot : Nat) :
    (cache.get slot =
      (buildSlotMap snap)[slot]?.bind fun entry => pubkeyFromStr entry.identity) ∧
    (slot / slotsPerEpoch ≠ currentSlot / slotsPerEpoch → cache.get slot = none) := by
  rw [fromRpc, epochFirstSlot_eq aligned sameEpoch] at built
  have leader := buildSlotMap_identity snap slot
  rw [← find_assigned] at leader
  rw [placeLeaders_get built slot, find_assigned_perm unique same]
  constructor
  · have decoded := congrArg (Option.bind · pubkeyFromStr) leader
    simp only [Option.bind_map] at decoded
    refine Eq.trans ?_ decoded.symm
    cases (assignments snap.schedule).reverse.find? fun assigned =>
      decide (slot = snap.epoch.epochFirstSlot + assigned.2) with
    | none => exact HashTable.get_empty slot
    | some assigned => rfl
  · intro outside
    cases found : (assignments snap.schedule).reverse.find? fun assigned =>
      decide (slot = snap.epoch.epochFirstSlot + assigned.2) with
    | none => exact HashTable.get_empty slot
    | some assigned =>
      refine absurd ?_ outside
      have inside := within assigned (List.mem_reverse.mp (List.mem_of_find?_eq_some found))
      have here : slot = snap.epoch.epochFirstSlot + assigned.2 := by
        simpa using List.find?_some found
      rw [EpochInfo.epochFirstSlot, aligned] at here
      unfold slotsPerEpoch at inside here sameEpoch ⊢
      omega

/-- Two keys in base 58. -/
def zeroKey : String := "11111111111111111111111111111111"

def oneKey : String := "11111111111111111111111111111112"

/-- The decoding of the two keys. -/
def sampleDecode (text : String) : Option Pubkey :=
  if text = zeroKey then some (Vector.replicate 32 0)
  else if text = oneKey then some ((Vector.replicate 31 0).push 1)
  else none

/-- An epoch with two leaders, fetched in its middle. -/
def twoLeaders : EpochSnapshot where
  epoch := ⟨1, 432100, 100, 432000⟩
  validators := []
  schedule := (∅ : LeaderSchedule).insert zeroKey [0] |>.insert oneKey [1]

theorem leaderCache_agrees_twoLeaders :
    ∃ cache, fromRpc sampleDecode (.ok (some [(oneKey, [1]), (zeroKey, [0])]) : Except Unit _)
        432007 = .ok cache ∧
      cache.get 432001 =
        (buildSlotMap twoLeaders)[432001]?.bind fun entry => sampleDecode entry.identity := by
  obtain ⟨cache, built⟩ : ∃ cache, fromRpc sampleDecode
      (.ok (some [(oneKey, [1]), (zeroKey, [0])]) : Except Unit _) 432007 = .ok cache :=
    ⟨_, rfl⟩
  have toList : twoLeaders.schedule.toList = [(zeroKey, [0]), (oneKey, [1])] := by decide +kernel
  refine ⟨cache, built, (leaderCache_agrees sampleDecode twoLeaders ?_ ?_ rfl 432007 rfl _ ?_ cache
    built 432001).1⟩
  · rw [Unique, assignments, toList]
    decide
  · rw [assignments, toList]
    decide
  · rw [toList]
    exact List.Perm.swap _ _ _

end SenderAnalysis.LeaderMap

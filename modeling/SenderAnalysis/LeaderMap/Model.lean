import SenderAnalysis.Foundations.HashTables
import Std.Data.ExtTreeMap

/-!
# The leader map

A snapshot of an epoch holds what the RPC said of the epoch at the moment of the fetch,
the validators, and the leader schedule, which gives every leader its slots by their index
in the epoch. Two programs turn it into a map from slots to leaders: the crate that
fetched it, and the analysis, which reads it back from JSON.
-/

set_option autoImplicit false

namespace SenderAnalysis.LeaderMap

open Std

/-- What is known of a validator. -/
structure ValidatorInfo where
  identity : String
  name : Option String
  voteAccount : Option String
  activeStakeLamports : Nat
  countryCode : Option String
  dataCenterKey : Option String
deriving DecidableEq, Repr

/-- The epoch at the moment of the fetch. -/
structure EpochInfo where
  epoch : Nat
  absoluteSlot : Nat
  slotIndex : Nat
  slotsInEpoch : Nat
deriving DecidableEq, Repr

def EpochInfo.epochFirstSlot (info : EpochInfo) : Nat := info.absoluteSlot - info.slotIndex

def EpochInfo.epochLastSlot (info : EpochInfo) : Nat :=
  info.epochFirstSlot + info.slotsInEpoch - 1

/-- The slots of every leader, by their index in the epoch. -/
abbrev LeaderSchedule := ExtTreeMap String (List Nat)

structure EpochSnapshot where
  epoch : EpochInfo
  validators : List ValidatorInfo
  schedule : LeaderSchedule

/-! ## The crate -/

/-- A slot, who leads it, and what is known of the leader. -/
structure SlotEntry where
  absoluteSlot : Nat
  identity : String
  validatorName : Option String
  countryCode : Option String
  dataCenterKey : Option String
  stakeLamports : Nat
deriving DecidableEq, Repr

/-- The validators by their identity. -/
def byIdentity (validators : List ValidatorInfo) : ExtTreeMap String ValidatorInfo :=
  validators.foldl (fun map v => map.insert v.identity v) ∅

/-- The entry of a slot that is led by a validator, known or not. -/
def slotEntry (info : Option ValidatorInfo) (abs : Nat) (identity : String) : SlotEntry where
  absoluteSlot := abs
  identity := identity
  validatorName := info.bind ValidatorInfo.name
  countryCode := info.bind ValidatorInfo.countryCode
  dataCenterKey := info.bind ValidatorInfo.dataCenterKey
  stakeLamports := (info.map ValidatorInfo.activeStakeLamports).getD 0

def buildSlotMap (snap : EpochSnapshot) : ExtTreeMap Nat SlotEntry :=
  let byIdentity := byIdentity snap.validators
  let epochFirst := snap.epoch.epochFirstSlot
  snap.schedule.toList.foldl (fun out (identity, slotIndices) =>
    let info := byIdentity[identity]?
    slotIndices.foldl (fun out idx =>
      let abs := epochFirst + idx
      out.insert abs (slotEntry info abs identity)) out) ∅

/-! ## The analysis -/

/-- What `json.load` makes of a snapshot that was saved: the keys of the schedule come in
the order of the map. -/
structure SnapshotJson where
  epoch : EpochInfo
  validators : List ValidatorInfo
  schedule : List (String × List Nat)

def EpochSnapshot.toJson (snap : EpochSnapshot) : SnapshotJson where
  epoch := snap.epoch
  validators := snap.validators
  schedule := snap.schedule.toList

/-- The leaders by slot, the validators by identity, and the vote accounts. -/
structure LeaderMaps where
  slotToId : HashTable Nat String
  validatorMeta : HashTable String ValidatorInfo
  idToVote : HashTable String (Option String)

def leaderMaps (vj : SnapshotJson) : LeaderMaps :=
  let first := vj.epoch.absoluteSlot
  { slotToId := vj.schedule.foldl (fun slotToId (ident, idxs) =>
      idxs.foldl (fun slotToId si => slotToId.insert (first + si) ident) slotToId) .empty
    validatorMeta := vj.validators.foldl (fun known v => known.insert v.identity v) .empty
    idToVote := vj.validators.foldl (fun idToVote v => idToVote.insert v.identity v.voteAccount)
      .empty }

end SenderAnalysis.LeaderMap

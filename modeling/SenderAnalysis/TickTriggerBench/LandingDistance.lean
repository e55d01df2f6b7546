import SenderAnalysis.TickTriggerBench.Finalizer.Model

/-!
# The landing distance of a send

The writer stores every final record as a row. For a send that was matched, the row says
how far behind its trigger it landed: in slots, in ticks and in hashes. The distance in
ticks is computed with 32-bit numbers and the one in hashes with 64-bit numbers, both from
the slot, the tick and the hash count of the match. Within the range of the 32-bit numbers
the two agree: the distance in ticks is the distance in hashes, in whole ticks
(`deltas_agree`).
-/

set_option autoImplicit false

namespace SenderAnalysis.TickTriggerBench

/-- Multiplication of unsigned integers that stops at the greatest one. -/
def saturatingMul (bits first second : Nat) : Nat := min (first * second) (2 ^ bits - 1)

/-- Subtraction of unsigned integers that stops at zero. -/
def saturatingSub (first second : UInt32) : UInt32 :=
  if second ≤ first then first - second else 0

def Status.asStr : Status → String
  | observed => "OBSERVED"
  | unknownPending => "UNKNOWN_PENDING"

/-- A row of the table of final records. -/
structure Row where
  scheduleSlot : Nat
  scheduleTick : UInt8
  scheduleLeader : Option Pubkey
  txSignature : Signature
  triggerObservedAtNs : Nat
  sendAtNs : Nat
  responseAtNs : Nat
  sendError : Option String
  observedAtNs : Option Nat
  observedSlot : Option Nat
  observedEntryIndex : Option UInt32
  observedTickInSlot : Option UInt8
  observedCumulativeHashesInSlot : Option Nat
  observedLeader : Option Pubkey
  tickDelta : Option UInt32
  slotDelta : Option UInt32
  timeDeltaNs : Option Nat
  hashDelta : Option Nat
  leaderChanged : Option Bool
  status : String
deriving DecidableEq, Repr

namespace Writer

/-- Nanoseconds from one instant to another, as a 64-bit number. -/
def nsBetween (earlier later : Instant) : Nat := saturatingDurationSince later earlier % 2 ^ 64

/-- 64 ticks of 62,500 hashes. -/
def hashesPerSlot : Nat := 64 * 62500

/-- How many slots the match is behind the send. -/
def slotDiff (send : SendEvent) (ev : MatchEvent) : Nat := ev.observedSlot - send.scheduleSlot

/-- The tick of the match, counted from the start of the scheduled slot. -/
def tickInTargetFrame (send : SendEvent) (ev : MatchEvent) (tick : UInt8) : UInt32 :=
  tick.toUInt32 + UInt32.ofNat (slotDiff send ev) * 64

def tickDelta (send : SendEvent) (ev : MatchEvent) : Option UInt32 :=
  ev.observedTickInSlot.map fun tick =>
    saturatingSub (tickInTargetFrame send ev tick) send.scheduleTick.toUInt32

/-- The trigger sits on the boundary of its tick. -/
def hashDelta (send : SendEvent) (ev : MatchEvent) : Option Nat :=
  ev.observedCumulativeHashesInSlot.map fun hashes =>
    saturatingAdd 64 (saturatingMul 64 (slotDiff send ev) hashesPerSlot) hashes -
      send.scheduleTick.toNat * 62500

/-- Whether the leader changed between the scheduled slot and that of the match. -/
def leaderChanged (lookup : Nat → Option Pubkey) (send : SendEvent) (ev : MatchEvent) :
    Option Bool :=
  (lookup send.scheduleSlot).bind fun scheduled =>
    (lookup ev.observedSlot).map fun observed => scheduled != observed

/-- The row of a final record. -/
def append (lookup : Nat → Option Pubkey) (anchor : Instant) (record : FinalRecord) : Row :=
  let send := record.send
  let found := record.matchEvent
  { scheduleSlot := send.scheduleSlot
    scheduleTick := send.scheduleTick
    scheduleLeader := lookup send.scheduleSlot
    txSignature := send.signature
    triggerObservedAtNs := nsBetween anchor send.triggerObservedAt
    sendAtNs := nsBetween anchor send.sendAt
    responseAtNs := nsBetween anchor send.responseAt
    sendError := send.error
    observedAtNs := found.map fun ev => nsBetween anchor ev.observedAt
    observedSlot := found.map MatchEvent.observedSlot
    observedEntryIndex := found.map MatchEvent.observedEntryIndex
    observedTickInSlot := found.bind MatchEvent.observedTickInSlot
    observedCumulativeHashesInSlot := found.bind MatchEvent.observedCumulativeHashesInSlot
    observedLeader := found.bind fun ev => lookup ev.observedSlot
    tickDelta := found.bind (tickDelta send)
    slotDelta := found.map fun ev => UInt32.ofNat (slotDiff send ev)
    timeDeltaNs := found.map fun ev => nsBetween send.sendAt ev.observedAt
    hashDelta := found.bind (hashDelta send)
    leaderChanged := found.bind (leaderChanged lookup send)
    status := record.status.asStr }

/-! ## The two distances -/

theorem toNat_saturatingSub (first second : UInt32) :
    (saturatingSub first second).toNat = first.toNat - second.toNat := by
  unfold saturatingSub
  split
  · next le => exact UInt32.toNat_sub_of_le _ _ le
  · next lt =>
    have below : ¬ second.toNat ≤ first.toNat := lt
    rw [UInt32.toNat_zero]
    omega

variable {send : SendEvent} {ev : MatchEvent} {tick : UInt8} {hashes : Nat}

/-- For a landing that is not too far away, the difference of the slots fits into 32 bits. -/
theorem toNat_slotDiff (near : slotDiff send ev < 2 ^ 26 - 1) :
    (UInt32.ofNat (slotDiff send ev)).toNat = slotDiff send ev := by
  rw [UInt32.toNat_ofNat']
  exact Nat.mod_eq_of_lt (by omega)

/-- For such a landing, the 32-bit tick count is exact. -/
theorem toNat_tickInTargetFrame (near : slotDiff send ev < 2 ^ 26 - 1) (inSlot : tick.toNat ≤ 64) :
    (UInt32.ofNat (slotDiff send ev) * 64).toNat = slotDiff send ev * 64 ∧
      (tickInTargetFrame send ev tick).toNat = tick.toNat + slotDiff send ev * 64 := by
  have product : (UInt32.ofNat (slotDiff send ev) * 64).toNat = slotDiff send ev * 64 := by
    have small : slotDiff send ev * 64 < 2 ^ 32 := by omega
    rw [UInt32.toNat_mul, toNat_slotDiff near]
    exact Nat.mod_eq_of_lt small
  have sum : tick.toNat + slotDiff send ev * 64 < 2 ^ 32 := by omega
  refine ⟨product, ?_⟩
  rw [tickInTargetFrame, UInt32.toNat_add, product, UInt8.toNat_toUInt32]
  exact Nat.mod_eq_of_lt sum

/-- For such a landing, the 64-bit hash count does not reach its bound. -/
theorem saturating_hashes (near : slotDiff send ev < 2 ^ 26 - 1) (few : hashes < 62500 * 65) :
    saturatingAdd 64 (saturatingMul 64 (slotDiff send ev) hashesPerSlot) hashes =
      slotDiff send ev * (64 * 62500) + hashes := by
  unfold saturatingAdd saturatingMul hashesPerSlot
  omega

/-- Whole ticks of a hash count, less the ticks of the trigger, whether or not the
subtractions stop at zero. -/
theorem ticks_of_hashes {ticks count trigger : Nat} (from' : 62500 * ticks ≤ count)
    (below : count < 62500 * (ticks + 1)) :
    62500 * (ticks - trigger) ≤ count - trigger * 62500 ∧
      count - trigger * 62500 < 62500 * (ticks - trigger + 1) := by
  omega

/-- **The distance of a landing in ticks and its distance in hashes agree, and the 32-bit
arithmetic of the ticks does not wrap.** -/
theorem deltas_agree (lookup : Nat → Option Pubkey) (anchor : Instant) {record : FinalRecord}
    (found : record.matchEvent = some ev) (near : slotDiff record.send ev < 2 ^ 26 - 1)
    (ticked : ev.observedTickInSlot = some tick) (inSlot : tick.toNat ≤ 64)
    (counted : ev.observedCumulativeHashesInSlot = some hashes)
    (from' : 62500 * tick.toNat ≤ hashes) (below : hashes < 62500 * (tick.toNat + 1)) :
    (UInt32.ofNat (slotDiff record.send ev)).toNat = slotDiff record.send ev ∧
      (UInt32.ofNat (slotDiff record.send ev) * 64).toNat = slotDiff record.send ev * 64 ∧
      (tickInTargetFrame record.send ev tick).toNat =
        tick.toNat + slotDiff record.send ev * 64 ∧
      ∃ tickDelta hashDelta, (append lookup anchor record).tickDelta = some tickDelta ∧
        (append lookup anchor record).hashDelta = some hashDelta ∧
        62500 * tickDelta.toNat ≤ hashDelta ∧ hashDelta < 62500 * (tickDelta.toNat + 1) := by
  obtain ⟨product, frame⟩ := toNat_tickInTargetFrame near inSlot
  have whole := saturating_hashes near (show hashes < 62500 * 65 by omega)
  refine ⟨toNat_slotDiff near, product, frame, saturatingSub (tickInTargetFrame record.send ev tick)
    record.send.scheduleTick.toUInt32, slotDiff record.send ev * (64 * 62500) + hashes -
      record.send.scheduleTick.toNat * 62500, ?_, ?_, ?_⟩
  · simp [append, found, tickDelta, ticked]
  · simp [append, found, hashDelta, counted, whole]
  · rw [toNat_saturatingSub, frame, UInt8.toNat_toUInt32]
    exact ticks_of_hashes (by omega) (by omega)

/-- A send for tick 5 of a slot lands in tick 2 of the next one, 130,000 hashes into it. -/
def sampleLanding : FinalRecord where
  send :=
    { signature := Vector.replicate 64 0
      scheduleSlot := 100
      scheduleTick := 5
      triggerObservedAt := 0
      sendAt := 0
      responseAt := 0
      error := none }
  matchEvent := some
    { signature := Vector.replicate 64 0
      observedAt := 9
      observedSlot := 101
      observedEntryIndex := 3
      observedTickInSlot := some 2
      observedCumulativeHashesInSlot := some 130000 }
  status := .observed

theorem deltas_agree_nextSlot :
    ∃ tickDelta hashDelta, (append (fun _ => none) 0 sampleLanding).tickDelta = some tickDelta ∧
      (append (fun _ => none) 0 sampleLanding).hashDelta = some hashDelta ∧
      62500 * tickDelta.toNat ≤ hashDelta ∧ hashDelta < 62500 * (tickDelta.toNat + 1) :=
  (@deltas_agree _ 2 130000 (fun _ => none) 0 sampleLanding rfl (by decide) rfl (by decide) rfl
    (by decide) (by decide)).2.2.2

end Writer

end SenderAnalysis.TickTriggerBench

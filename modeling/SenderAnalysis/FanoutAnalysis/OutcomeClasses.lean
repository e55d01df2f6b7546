import Mathlib.Algebra.Order.Ring.Rat
import SenderAnalysis.FanoutAnalysis.PairedDesign
import SenderAnalysis.LeaderMap.Model

/-!
# Outcome classes

Every row of a loaded frame is enriched with the leaders of the slot it was fired in and
of the slot it was observed in, and with columns that are computed from it. One of these
is its outcome class. The class is chosen row by row, by the first condition that the row
meets, and a pending row that was sent and was not answered with a server error falls to
the default: it lost the race, which another sender won.

A row is classed as won exactly when it landed (`outcomeClass_won_iff`). That another
sender won is never looked at. So the classes mean what their labels say exactly when
every trigger with such a pending row landed (`classesMeanLabels_iff`).
-/

set_option autoImplicit false

namespace SenderAnalysis.FanoutAnalysis

/-- What became of an attempt. -/
inductive OutcomeClass where
  /-- Won (landed). -/
  | won
  /-- Lost race (sent, another sender won). -/
  | lostRace
  /-- Never sent (no tx left client). -/
  | neverSent
  /-- Throttled locally (client rate-limit). -/
  | throttledLocal
  /-- Provider rejected (HTTP 429). -/
  | providerRejected
  /-- Server error (HTTP 500). -/
  | serverError
deriving DecidableEq, Repr

/-- A row with the leaders of its two slots, where the leader map has them. -/
structure EnrichedRow where
  raw : TriggerRecord
  leaderIdentity : Option String
  observedLeaderIdentity : Option String

/-- Look up the leaders of a row. -/
def enrich (slotToId : HashTable Nat String) (row : TriggerRecord) : EnrichedRow where
  raw := row
  leaderIdentity := slotToId.get row.slot
  observedLeaderIdentity := row.observedSlot.bind slotToId.get

/-- The text contains "throttl", in letters of either case. -/
def containsThrottl (text : String) : Bool :=
  "throttl".toList <:+: text.toList.map Char.toLower

namespace EnrichedRow

variable (row : EnrichedRow)

/-! ## Columns -/

def land : Bool := row.raw.finalOutcome = .landed

def isSendError : Bool := row.raw.finalOutcome = .sendError

def isPending : Bool := row.raw.finalOutcome = .unknownPending

/-- The round trip of the send, in milliseconds. -/
def rttMs : Option Rat := row.raw.wallSendRttNs.map fun ns : Nat => (ns : Rat) / 1000000

/-- No transaction left the client. -/
def neverSent : Bool := row.raw.sendAtNs = 0

/-- A pending row that was answered with a server error. -/
def helius500 : Bool := row.raw.httpStatus = some 500 ∧ row.isPending

/-- A send error that the client made itself: its text says so, or the round trip took no
time. -/
def throttled : Bool :=
  row.isSendError && (row.raw.sendError.any containsThrottl ||
    (row.rttMs = some 0 && row.raw.httpStatus ≠ some 429))

/-- The class of the first condition that the row meets. -/
def outcomeClass : OutcomeClass :=
  if row.land then .won
  else if row.isSendError && row.raw.httpStatus = some 429 then .providerRejected
  else if row.throttled then .throttledLocal
  else if row.isSendError then .providerRejected
  else if row.isPending && row.neverSent then .neverSent
  else if row.isPending && row.helius500 then .serverError
  else .lostRace

end EnrichedRow

/-- A loaded frame with the leaders of its rows. Cleaning has left at most one row of a
sender in a trigger. -/
structure EnrichedFrame where
  long : PairedFrame
  single : ∀ trigger, ((long.rows.group trigger).map TriggerRecord.senderName).Nodup
  slotToId : HashTable Nat String

/-- Load a run with the leaders of its epoch. -/
def loadEnriched (raw : Frame) (vj : LeaderMap.SnapshotJson) : Option EnrichedFrame :=
  match loaded : loadLong raw true true with
  | some long => some ⟨long, loadLong_single loaded, (LeaderMap.leaderMaps vj).slotToId⟩
  | none => none

namespace EnrichedFrame

def rows (df : EnrichedFrame) : List EnrichedRow := df.long.rows.map (enrich df.slotToId)

/-- The rows of a sender. -/
def rowsOf (df : EnrichedFrame) (sender : String) : List EnrichedRow :=
  df.rows.filter fun row => row.raw.senderName = sender

end EnrichedFrame

/-! ## What the classes say of a row -/

namespace EnrichedRow

variable {row : EnrichedRow}

/-- **A row is classed as won exactly when it landed.** -/
theorem outcomeClass_won_iff : row.outcomeClass = .won ↔ row.raw.finalOutcome = .landed := by
  unfold outcomeClass
  by_cases landed : row.raw.finalOutcome = .landed
  · simp [land, landed]
  · simp only [land, landed, decide_false, Bool.false_eq_true, if_false, iff_false]
    split_ifs <;> simp

/-- The rows that fall to the default are the pending ones that were sent and were not
answered with a server error. -/
theorem outcomeClass_lostRace_iff :
    row.outcomeClass = .lostRace ↔ row.raw.finalOutcome = .unknownPending ∧
      row.neverSent = false ∧ row.raw.httpStatus ≠ some 500 := by
  unfold outcomeClass
  cases outcome : row.raw.finalOutcome with
  | landed => simp [land, outcome]
  | sendError =>
    simp only [land, isSendError, isPending, outcome]
    split_ifs <;> simp_all
  | unknownPending =>
    have notError : row.isSendError = false := by simp [isSendError, outcome]
    have pending : row.isPending = true := by simp [isPending, outcome]
    have notThrottled : row.throttled = false := by simp [throttled, notError]
    have notLanded : row.land = false := by simp [land, outcome]
    simp only [notLanded, notError, notThrottled, pending, Bool.false_eq_true, Bool.false_and,
      Bool.true_and, if_false, true_and]
    cases sent : row.neverSent with
    | true => simp
    | false =>
      by_cases status : row.raw.httpStatus = some 500
      · simp [helius500, status, pending]
      · simp [helius500, status]

end EnrichedRow

/-! ## What the classes say of a trigger -/

namespace EnrichedFrame

/-- A row is classed as won when it landed, and as having lost the race only when it was
sent and another sender won its trigger. -/
def ClassesMeanLabels (df : EnrichedFrame) : Prop :=
  ∀ row ∈ df.rows, (row.outcomeClass = .won ↔ row.raw.finalOutcome = .landed) ∧
    (row.outcomeClass = .lostRace → row.neverSent = false ∧
      ∃ winner ∈ df.rows, winner.raw.triggerId = row.raw.triggerId ∧
        winner.raw.senderName ≠ row.raw.senderName ∧ winner.raw.finalOutcome = .landed)

/-- Two rows of one trigger with the same sender are one row. -/
theorem eq_of_sender {df : EnrichedFrame} {first second : EnrichedRow} (inFirst : first ∈ df.rows)
    (inSecond : second ∈ df.rows) (sameTrigger : first.raw.triggerId = second.raw.triggerId)
    (sameSender : first.raw.senderName = second.raw.senderName) : first = second := by
  obtain ⟨raw, mem, rfl⟩ := List.mem_map.mp inFirst
  obtain ⟨raw', mem', rfl⟩ := List.mem_map.mp inSecond
  have inGroup : raw ∈ df.long.rows.group raw'.triggerId :=
    Frame.mem_group.mpr ⟨mem, sameTrigger⟩
  have inGroup' : raw' ∈ df.long.rows.group raw'.triggerId := Frame.mem_group.mpr ⟨mem', rfl⟩
  exact congrArg _ (List.inj_on_of_nodup_map (df.single raw'.triggerId) inGroup inGroup' sameSender)

/-- **The classes mean what their labels say exactly when every trigger landed that has a
pending row which was sent and was not answered with a server error.** -/
theorem classesMeanLabels_iff (df : EnrichedFrame) :
    df.ClassesMeanLabels ↔ ∀ row ∈ df.rows, row.raw.finalOutcome = .unknownPending →
      row.neverSent = false → row.raw.httpStatus ≠ some 500 →
        ∃ winner ∈ df.rows, winner.raw.triggerId = row.raw.triggerId ∧
          winner.raw.finalOutcome = .landed := by
  constructor
  · intro means row mem pending sent status
    have lost := EnrichedRow.outcomeClass_lostRace_iff.mpr ⟨pending, sent, status⟩
    obtain ⟨_, winner, inFrame, sameTrigger, _, landed⟩ := (means row mem).2 lost
    exact ⟨winner, inFrame, sameTrigger, landed⟩
  · intro landed row mem
    refine ⟨EnrichedRow.outcomeClass_won_iff, ?_⟩
    intro lost
    obtain ⟨pending, sent, status⟩ := EnrichedRow.outcomeClass_lostRace_iff.mp lost
    obtain ⟨winner, inFrame, sameTrigger, won⟩ := landed row mem pending sent status
    refine ⟨sent, winner, inFrame, sameTrigger, ?_, won⟩
    intro sameSender
    rw [eq_of_sender inFrame mem sameTrigger sameSender, pending] at won
    cases won

end EnrichedFrame

/-! ## Loaded runs -/

/-- A run that is loaded has the rows that cleaning leaves, enriched. -/
theorem loadEnriched_rows {raw rows : Frame} (vj : LeaderMap.SnapshotJson)
    (loaded : (loadLong raw true true).map PairedFrame.rows = some rows) :
    ∃ df, loadEnriched raw vj = some df ∧
      df.rows = rows.map (enrich (LeaderMap.leaderMaps vj).slotToId) := by
  obtain ⟨long, result, rfl⟩ := Option.map_eq_some_iff.mp loaded
  refine ⟨⟨long, loadLong_single result, (LeaderMap.leaderMaps vj).slotToId⟩, ?_, rfl⟩
  unfold loadEnriched
  split
  · next other result' =>
    rw [result] at result'
    cases result'
    rfl
  · next none' =>
    rw [result] at none'
    cases none'

/-- An epoch with leaders for its first two slots. -/
def sampleJson : LeaderMap.SnapshotJson where
  epoch := { epoch := 1, absoluteSlot := 100, slotIndex := 0, slotsInEpoch := 3 }
  validators := []
  schedule := [("L", [0, 1])]

/-- A run of one trigger, sent by one sender, and nobody won: the row is classed as having
lost the race. -/
theorem classesMeanLabels_nobodyWon :
    ∃ df, loadEnriched [sampleRow 1 "A" 1 .unknownPending] sampleJson = some df ∧
      df.rows.map EnrichedRow.outcomeClass = [.lostRace] ∧ ¬df.ClassesMeanLabels := by
  obtain ⟨df, loaded, rows⟩ := @loadEnriched_rows [sampleRow 1 "A" 1 .unknownPending]
    [sampleRow 1 "A" 1 .unknownPending] sampleJson (by decide +kernel)
  have classes : df.rows.map EnrichedRow.outcomeClass = [.lostRace] := by
    rw [rows]
    decide +kernel
  refine ⟨df, loaded, classes, ?_⟩
  intro means
  rw [EnrichedFrame.ClassesMeanLabels, rows] at means
  obtain ⟨_, winner, inFrame, _, _, landed⟩ :=
    (means _ List.mem_cons_self).2 (by decide +kernel)
  rw [List.mem_singleton.mp inFrame] at landed
  cases landed

end SenderAnalysis.FanoutAnalysis

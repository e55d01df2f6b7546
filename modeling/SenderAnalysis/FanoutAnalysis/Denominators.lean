import SenderAnalysis.FanoutAnalysis.OutcomeClasses
import SenderAnalysis.Foundations.Tallies

/-!
# The corrected conditional denominator

Two sections of the report correct the conditional denominator of a sender. Both start
from the attempts without a send error. The win rates leave out all of them that were never
sent. The error section leaves out the pending ones that were never sent, and also the
pending ones that were answered with a server error, which it counts as send errors.

They are one number, and not less than the landed attempts, exactly when the pending rows
with a server error are as many as the landed rows without a send, and not more than the
pending rows that were sent (`oneDenominator_iff`).
-/

set_option autoImplicit false

namespace SenderAnalysis.FanoutAnalysis

/-! ## The win rates -/

/-- The counts of a sender in the table of win rates. -/
structure EstimandRow where
  senderName : String
  protocolClass : String
  landed : Nat
  operationalN : Nat
  conditionalLanded : Nat
  conditionalN : Nat
  shareN : Nat
  correctedLanded : Nat
  correctedN : Nat
  neverSent : Nat
  helius500 : Nat
  gate : String
deriving DecidableEq, Repr

/-- How much a conditional denominator supports. -/
def gate (condN minN minIndicative : Nat) : String :=
  if condN ≥ minN then "inferential" else if condN ≥ minIndicative then "indicative"
  else "suppressed"

def estimandRow (df : EnrichedFrame) (minN minIndicative : Nat) (s protocol : String) :
    EstimandRow :=
  let sub := df.rowsOf s
  let landed := sub.countP EnrichedRow.land
  let condN := sub.countP fun row => !row.isSendError
  { senderName := s
    protocolClass := protocol
    landed
    operationalN := sub.length
    conditionalLanded := landed
    conditionalN := condN
    shareN := df.rows.countP EnrichedRow.land
    correctedLanded := sub.countP fun row => row.land && !row.helius500
    correctedN := sub.countP fun row => !row.isSendError && !row.neverSent
    neverSent := sub.countP EnrichedRow.neverSent
    helius500 := sub.countP EnrichedRow.helius500
    gate := gate condN minN minIndicative }

/-- The table: a row for every sender of the analysis. -/
def estimandsTable (df : EnrichedFrame) (minN minIndicative : Nat) : List EstimandRow :=
  senderMeta.map fun (s, known) => estimandRow df minN minIndicative s known.protocolClass

/-! ## The error section -/

/-- The corrections of a sender. -/
structure DenominatorCorrection where
  sender : String
  landed : Nat
  rawUnknownPending : Nat
  rawConditionalDenominator : Nat
  reclassifiedToSenderror : Nat
  neverSentExcluded : Nat
  correctedConditionalDenominator : Int
deriving DecidableEq, Repr

def denominatorCorrection (sender : String) (sub : List EnrichedRow) : DenominatorCorrection :=
  let landed := sub.countP EnrichedRow.land
  let rawUp := sub.countP EnrichedRow.isPending
  let rawDenom := landed + rawUp
  let reclassified := sub.countP EnrichedRow.helius500
  let neverSentUp := sub.countP fun row => row.isPending && row.neverSent
  { sender
    landed
    rawUnknownPending := rawUp
    rawConditionalDenominator := rawDenom
    reclassifiedToSenderror := reclassified
    neverSentExcluded := neverSentUp
    correctedConditionalDenominator := (rawDenom : Int) - reclassified - neverSentUp }

/-- The table: a row for every sender of the frame. -/
def denominatorCorrections (df : EnrichedFrame) : List DenominatorCorrection :=
  ((df.rows.map fun row => row.raw.senderName).dedup.insertionSort (· ≤ ·)).map fun sender =>
    denominatorCorrection sender (df.rowsOf sender)

/-! ## One number -/

section Counts

variable (sub : List EnrichedRow)

/-- The attempts without a send error landed or are pending. -/
theorem countP_accepted (keep : EnrichedRow → Bool) :
    sub.countP (fun row => !row.isSendError && keep row) =
      sub.countP (fun row => row.land && keep row) +
        sub.countP fun row => row.isPending && keep row := by
  induction sub with
  | nil => rfl
  | cons row sub ih =>
    simp only [List.countP_cons, ih]
    cases outcome : row.raw.finalOutcome <;> cases keep row <;>
      simp [EnrichedRow.land, EnrichedRow.isSendError, EnrichedRow.isPending, outcome] <;> omega

/-- A server error is never that of a landed row. -/
theorem countP_landed :
    sub.countP (fun row => row.land && !row.helius500) = sub.countP EnrichedRow.land := by
  apply List.countP_congr
  intro row _
  cases outcome : row.raw.finalOutcome <;>
    simp [EnrichedRow.land, EnrichedRow.helius500, EnrichedRow.isPending, outcome]

end Counts

/-- The pending rows with a server error are as many as the landed rows without a send, and
not more than the pending rows that were sent. -/
def ErrorsOffset (sub : List EnrichedRow) : Prop :=
  sub.countP EnrichedRow.helius500 = sub.countP (fun row => row.land && row.neverSent) ∧
    sub.countP EnrichedRow.helius500 ≤ sub.countP fun row => row.isPending && !row.neverSent

/-- The two rows of a sender. -/
theorem correctedN_eq_iff (df : EnrichedFrame) (minN minIndicative : Nat)
    (sender protocol : String) :
    ((estimandRow df minN minIndicative sender protocol).correctedN : Int) =
          (denominatorCorrection sender (df.rowsOf sender)).correctedConditionalDenominator ∧
        ((estimandRow df minN minIndicative sender protocol).correctedLanded : Int) ≤
          (denominatorCorrection sender (df.rowsOf sender)).correctedConditionalDenominator ↔
      ErrorsOffset (df.rowsOf sender) := by
  set sub := df.rowsOf sender with sub_eq
  have accepted := countP_accepted sub fun row => !row.neverSent
  have landed := countP_split EnrichedRow.land EnrichedRow.neverSent sub
  have pending := countP_split EnrichedRow.isPending EnrichedRow.neverSent sub
  have kept := countP_landed sub
  simp only [ErrorsOffset, estimandRow, denominatorCorrection, ← sub_eq]
  omega

/-- The two tables have one denominator for the sender, and the landed attempts do not
exceed it. -/
def OneDenominator (df : EnrichedFrame) (minN minIndicative : Nat) (sender : String) : Prop :=
  ∀ estimands ∈ estimandsTable df minN minIndicative, ∀ correction ∈ denominatorCorrections df,
    estimands.senderName = sender → correction.sender = sender →
      (estimands.correctedN : Int) = correction.correctedConditionalDenominator ∧
        (estimands.correctedLanded : Int) ≤ correction.correctedConditionalDenominator

/-- The corrections of the senders that have rows. -/
theorem mem_denominatorCorrections {df : EnrichedFrame} {correction : DenominatorCorrection} :
    correction ∈ denominatorCorrections df ↔ ∃ sender, df.rowsOf sender ≠ [] ∧
      correction = denominatorCorrection sender (df.rowsOf sender) := by
  simp only [denominatorCorrections, List.mem_map, List.mem_insertionSort, List.mem_dedup]
  constructor
  · rintro ⟨_, ⟨row, mem, rfl⟩, rfl⟩
    exact ⟨row.raw.senderName,
      List.ne_nil_of_mem (List.mem_filter.mpr ⟨mem, decide_eq_true rfl⟩), rfl⟩
  · rintro ⟨sender, nonempty, rfl⟩
    obtain ⟨row, mem⟩ := List.exists_mem_of_ne_nil _ nonempty
    obtain ⟨inFrame, same⟩ := List.mem_filter.mp mem
    exact ⟨sender, ⟨row, inFrame, of_decide_eq_true same⟩, rfl⟩

/-- **For a sender of the analysis, the corrected denominators are one number that the
landed attempts do not exceed exactly when its pending rows with a server error are as many
as its landed rows without a send, and not more than its pending rows that were sent.**
Other senders are not in the table of win rates. -/
theorem oneDenominator_iff (df : EnrichedFrame) (minN minIndicative : Nat) (sender : String) :
    OneDenominator df minN minIndicative sender ↔
      (sender ∈ senderMeta.map Prod.fst → ErrorsOffset (df.rowsOf sender)) := by
  constructor
  · intro one known
    obtain ⟨⟨s, known'⟩, mem, rfl⟩ := List.mem_map.mp known
    by_cases empty : df.rowsOf s = []
    · -- Without rows all counts are zero.
      simp [ErrorsOffset, empty]
    · apply (correctedN_eq_iff df minN minIndicative s known'.protocolClass).mp
      exact one _ (List.mem_map.mpr ⟨_, mem, rfl⟩) _
        (mem_denominatorCorrections.mpr ⟨s, empty, rfl⟩) rfl rfl
  · intro offset estimands inTable correction inCorrections own own'
    obtain ⟨⟨s, known⟩, mem, rfl⟩ := List.mem_map.mp inTable
    obtain ⟨other, _, rfl⟩ := mem_denominatorCorrections.mp inCorrections
    have same : s = sender := own
    have same' : other = sender := own'
    rw [same, same']
    exact (correctedN_eq_iff df minN minIndicative sender known.protocolClass).mpr
      (offset (List.mem_map.mpr ⟨_, mem, same⟩))

/-- A pending attempt that was sent and answered with a server error. -/
def sampleServerError : TriggerRecord :=
  { sampleRow 1 "helius-fra" 1 .unknownPending with httpStatus := some 500 }

/-- The win rates keep the attempt in the denominator, and the error section leaves it
out. -/
theorem oneDenominator_serverError :
    ∃ df, loadEnriched [sampleServerError] sampleJson = some df ∧
      ((estimandsTable df 20 5).filter (fun row => row.senderName = "helius-fra")).map
          EstimandRow.correctedN = [1] ∧
      (denominatorCorrections df).map DenominatorCorrection.correctedConditionalDenominator =
        [0] ∧
      ¬OneDenominator df 20 5 "helius-fra" := by
  obtain ⟨df, loaded, rows⟩ := @loadEnriched_rows [sampleServerError] [sampleServerError]
    sampleJson (by decide +kernel)
  have kept : ((estimandsTable df 20 5).filter (fun row => row.senderName = "helius-fra")).map
      EstimandRow.correctedN = [1] := by
    simp only [estimandsTable, estimandRow, EnrichedFrame.rowsOf, rows]
    decide +kernel
  have leftOut : (denominatorCorrections df).map
      DenominatorCorrection.correctedConditionalDenominator = [0] := by
    simp only [denominatorCorrections, EnrichedFrame.rowsOf, rows]
    decide +kernel
  refine ⟨df, loaded, kept, leftOut, ?_⟩
  intro one
  have inTable : estimandRow df 20 5 "helius-fra" "HTTP_JSONRPC" ∈ estimandsTable df 20 5 :=
    List.mem_map.mpr ⟨("helius-fra", ⟨"HTTP_JSONRPC", "Frankfurt", "helius-fra"⟩),
      by decide +kernel, rfl⟩
  have hasRows : df.rowsOf "helius-fra" ≠ [] := by
    rw [EnrichedFrame.rowsOf, rows]
    exact List.cons_ne_nil _ _
  have offset := (correctedN_eq_iff df 20 5 "helius-fra" "HTTP_JSONRPC").mp
    (one _ inTable _ (mem_denominatorCorrections.mpr ⟨_, hasRows, rfl⟩) rfl rfl)
  rw [ErrorsOffset, EnrichedFrame.rowsOf, rows] at offset
  exact absurd offset.1 (by decide +kernel)

end SenderAnalysis.FanoutAnalysis

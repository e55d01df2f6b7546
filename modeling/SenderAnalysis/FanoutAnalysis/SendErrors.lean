import SenderAnalysis.FanoutAnalysis.OutcomeClasses
import SenderAnalysis.Foundations.Tallies

/-!
# The two taxonomies of send errors

The rows with a send error are classed twice: by the outcome class of the loaded frame and
by the reason of the taxonomy table. Both look at the HTTP status, the text of the error
and the round trip, but in a different order, and with a different test of the text. The
taxonomy has a fourth reason that its table has no column for.

What the taxonomy calls throttled the outcome class calls throttled too. So the columns of
a sender sum to its send errors and both counts of throttled rows agree exactly when no
row has the reason without a column and no throttled row was answered with a server error
(`taxonomiesAgree_iff`).
-/

set_option autoImplicit false

namespace SenderAnalysis.FanoutAnalysis

/-- Why a send failed. Only the first three reasons are columns of the table. -/
inductive SendErrorReason where
  | throttledLocal
  | http429
  | server500
  | other
deriving DecidableEq, Repr

/-- Classify a row with a send error. -/
def senderrorReason (row : EnrichedRow) : SendErrorReason :=
  if row.raw.httpStatus = some 429 then .http429
  else if row.raw.httpStatus = some 500 then .server500
  else if row.raw.sendError = some "throttled_local" ∨ row.rttMs = some 0 then .throttledLocal
  else .other

/-- The row of a sender. -/
structure TaxonomyRow where
  senderName : String
  protocolClass : Option String
  sendErrorTotal : Nat
  throttledLocal : Nat
  http429 : Nat
  server500 : Nat
  rpcErrCodes : String
deriving DecidableEq, Repr

/-- The distinct codes in order, joined by semicolons. -/
def joinCodes (codes : List Int) : String :=
  ";".intercalate ((codes.dedup.insertionSort (· ≤ ·)).map toString)

def taxonomyRow (sender : String) (sub : List EnrichedRow) : TaxonomyRow :=
  let counts := fun reason : SendErrorReason =>
    sub.countP fun row => senderrorReason row = reason
  { senderName := sender
    protocolClass := protocolOf sender
    sendErrorTotal := sub.length
    throttledLocal := counts .throttledLocal
    http429 := counts .http429
    server500 := counts .server500
    rpcErrCodes := joinCodes (sub.filterMap fun row => row.raw.rpcErrCode.map Int32.toInt) }

/-- The rows with a send error. -/
def sendErrors (rows : List EnrichedRow) : List EnrichedRow := rows.filter EnrichedRow.isSendError

/-- The table: a row for every sender with send errors, the largest totals first. -/
def senderrorTaxonomy (df : EnrichedFrame) : List TaxonomyRow :=
  let se := sendErrors df.rows
  let senders := (se.map fun row => row.raw.senderName).dedup
  (senders.map fun sender =>
    taxonomyRow sender (se.filter fun row => row.raw.senderName = sender)).insertionSort
      fun first second => second.sendErrorTotal ≤ first.sendErrorTotal

/-- The rows of the table are those of the senders with send errors. -/
theorem mem_senderrorTaxonomy {df : EnrichedFrame} {entry : TaxonomyRow} :
    entry ∈ senderrorTaxonomy df ↔ ∃ sender, sendErrors (df.rowsOf sender) ≠ [] ∧
      entry = taxonomyRow sender (sendErrors (df.rowsOf sender)) := by
  have swap : ∀ sender, (sendErrors df.rows).filter (fun row => row.raw.senderName = sender) =
      sendErrors (df.rowsOf sender) := fun sender => List.filter_comm _ _ _
  unfold senderrorTaxonomy
  simp only [List.mem_insertionSort, List.mem_map, List.mem_dedup, swap]
  constructor
  · rintro ⟨_, ⟨row, mem, rfl⟩, rfl⟩
    refine ⟨row.raw.senderName, ?_, rfl⟩
    rw [← swap]
    exact List.ne_nil_of_mem (List.mem_filter.mpr ⟨mem, decide_eq_true rfl⟩)
  · rintro ⟨sender, nonempty, rfl⟩
    obtain ⟨row, mem⟩ := List.exists_mem_of_ne_nil _ nonempty
    rw [← swap] at mem
    obtain ⟨inErrors, same⟩ := List.mem_filter.mp mem
    exact ⟨sender, ⟨row, inErrors, of_decide_eq_true same⟩, rfl⟩

/-! ## One row -/

section Row

variable {row : EnrichedRow}

/-- The outcome class of a row with a send error. -/
theorem outcomeClass_throttled_iff (isError : row.isSendError = true) :
    row.outcomeClass = .throttledLocal ↔ row.raw.httpStatus ≠ some 429 ∧
      (row.raw.sendError.any containsThrottl ∨ row.rttMs = some 0) := by
  have notLanded : row.land = false := by
    have outcome : row.raw.finalOutcome = .sendError := of_decide_eq_true isError
    simp [EnrichedRow.land, outcome]
  unfold EnrichedRow.outcomeClass EnrichedRow.throttled
  simp only [notLanded, isError, Bool.false_eq_true, Bool.true_and, if_false, if_true]
  by_cases limited : row.raw.httpStatus = some 429
  · simp [limited]
  · by_cases text : row.raw.sendError.any containsThrottl <;>
      by_cases zero : row.rttMs = some 0 <;> simp [limited, text, zero]

/-- What the taxonomy calls throttled has the outcome class of throttled rows. -/
theorem outcomeClass_of_reason (isError : row.isSendError = true)
    (reason : senderrorReason row = .throttledLocal) : row.outcomeClass = .throttledLocal := by
  unfold senderrorReason at reason
  split_ifs at reason with limited failed throttled
  refine (outcomeClass_throttled_iff isError).mpr ⟨limited, ?_⟩
  apply throttled.imp_left
  intro text
  rw [text]
  decide +kernel

/-- A reason with a column, and no disagreement on what is throttled. -/
def Reported (row : EnrichedRow) : Prop :=
  (row.raw.httpStatus = some 429 ∨ row.raw.httpStatus = some 500 ∨
      row.raw.sendError = some "throttled_local" ∨ row.rttMs = some 0) ∧
    ¬(row.raw.httpStatus = some 500 ∧
      (row.raw.sendError.any containsThrottl ∨ row.rttMs = some 0))

theorem reported_iff (isError : row.isSendError = true) :
    Reported row ↔ senderrorReason row ≠ .other ∧
      (row.outcomeClass = .throttledLocal → senderrorReason row = .throttledLocal) := by
  rw [outcomeClass_throttled_iff isError]
  unfold Reported senderrorReason
  by_cases limited : row.raw.httpStatus = some 429
  · simp [limited]
  · by_cases failed : row.raw.httpStatus = some 500
    · simp [failed]
    · by_cases throttled : row.raw.sendError = some "throttled_local" ∨ row.rttMs = some 0 <;>
        simp [limited, failed, throttled]

end Row

/-! ## One sender -/

section Sender

variable (sender : String) (rows sub : List EnrichedRow)

theorem mem_sendErrors {row : EnrichedRow} :
    row ∈ sendErrors rows ↔ row ∈ rows ∧ row.raw.finalOutcome = .sendError := by
  rw [sendErrors, List.mem_filter, EnrichedRow.isSendError, decide_eq_true_eq]

/-- Every row has one of the four reasons. -/
theorem countP_reasons :
    sub.countP (fun row => senderrorReason row = .throttledLocal) +
        sub.countP (fun row => senderrorReason row = .http429) +
        sub.countP (fun row => senderrorReason row = .server500) +
        sub.countP (fun row => senderrorReason row = .other) = sub.length := by
  induction sub with
  | nil => rfl
  | cons row sub ih =>
    simp only [List.countP_cons, List.length_cons]
    cases senderrorReason row <;> simp <;> omega

/-- The columns sum to the total when no row has the reason without a column. -/
theorem taxonomyRow_sums_iff :
    (taxonomyRow sender sub).throttledLocal + (taxonomyRow sender sub).http429 +
        (taxonomyRow sender sub).server500 = (taxonomyRow sender sub).sendErrorTotal ↔
      ∀ row ∈ sub, senderrorReason row ≠ .other := by
  have all := countP_reasons sub
  have none' : sub.countP (fun row => senderrorReason row = .other) = 0 ↔
      ∀ row ∈ sub, senderrorReason row ≠ .other := by
    rw [List.countP_eq_zero]
    simp only [decide_eq_true_eq, ne_eq]
  rw [← none']
  simp only [taxonomyRow]
  omega

/-- The throttled rows are counted alike when no row is throttled for the outcome class
only. -/
theorem taxonomyRow_throttled_iff :
    (taxonomyRow sender (sendErrors rows)).throttledLocal =
        rows.countP (fun row => row.isSendError && row.outcomeClass = .throttledLocal) ↔
      ∀ row ∈ sendErrors rows, row.outcomeClass = .throttledLocal →
        senderrorReason row = .throttledLocal := by
  have among : rows.countP (fun row => row.isSendError && row.outcomeClass = .throttledLocal) =
      (sendErrors rows).countP fun row => row.outcomeClass = .throttledLocal := by
    rw [sendErrors, List.countP_filter]
    exact List.countP_congr fun row _ => by rw [Bool.and_comm]
  rw [among]
  refine (countP_eq_iff ?_).trans ?_
  · intro row mem reason
    have isError : row.isSendError = true := (List.mem_filter.mp mem).2
    exact decide_eq_true (outcomeClass_of_reason isError (of_decide_eq_true reason))
  · simp only [decide_eq_true_eq]

/-- Both hold of a sender when they hold of each of its rows. -/
theorem taxonomyRow_agrees_iff :
    ((taxonomyRow sender (sendErrors rows)).throttledLocal +
          (taxonomyRow sender (sendErrors rows)).http429 +
          (taxonomyRow sender (sendErrors rows)).server500 =
        (taxonomyRow sender (sendErrors rows)).sendErrorTotal ∧
      (taxonomyRow sender (sendErrors rows)).throttledLocal =
        rows.countP fun row => row.isSendError && row.outcomeClass = .throttledLocal) ↔
      ∀ row ∈ rows, row.raw.finalOutcome = .sendError → Reported row := by
  have each : ∀ row ∈ sendErrors rows, Reported row ↔ senderrorReason row ≠ .other ∧
      (row.outcomeClass = .throttledLocal → senderrorReason row = .throttledLocal) :=
    fun row mem => reported_iff (List.mem_filter.mp mem).2
  rw [taxonomyRow_sums_iff, taxonomyRow_throttled_iff]
  constructor
  · rintro ⟨columns, same⟩ row mem outcome
    have here := (mem_sendErrors rows).mpr ⟨mem, outcome⟩
    exact (each row here).mpr ⟨columns row here, same row here⟩
  · intro reported
    have reported' : ∀ row ∈ sendErrors rows, Reported row := fun row mem =>
      reported row ((mem_sendErrors rows).mp mem).1 ((mem_sendErrors rows).mp mem).2
    exact ⟨fun row mem => ((each row mem).mp (reported' row mem)).1,
      fun row mem => ((each row mem).mp (reported' row mem)).2⟩

end Sender

/-! ## The table -/

/-- The columns of the sender's row sum to its total, and its throttled rows are those
with the outcome class of throttled rows. -/
def TaxonomiesAgree (df : EnrichedFrame) (sender : String) : Prop :=
  ∀ entry ∈ senderrorTaxonomy df, entry.senderName = sender →
    entry.throttledLocal + entry.http429 + entry.server500 = entry.sendErrorTotal ∧
      entry.throttledLocal = (df.rowsOf sender).countP fun row =>
        row.isSendError && row.outcomeClass = .throttledLocal

/-- **The columns sum to the send errors and the taxonomies count the same throttled rows
exactly when every send error of the sender has a reason with a column, and none was both
throttled and answered with a server error.** -/
theorem taxonomiesAgree_iff (df : EnrichedFrame) (sender : String) :
    TaxonomiesAgree df sender ↔
      ∀ row ∈ df.rowsOf sender, row.raw.finalOutcome = .sendError → Reported row := by
  rw [← taxonomyRow_agrees_iff sender]
  constructor
  · intro agree
    by_cases empty : sendErrors (df.rowsOf sender) = []
    · -- Without send errors there is no row in the table, and nothing to report.
      apply (taxonomyRow_agrees_iff sender (df.rowsOf sender)).mpr
      intro row mem outcome
      exact absurd (empty ▸ (mem_sendErrors _).mpr ⟨mem, outcome⟩) List.not_mem_nil
    · exact agree _ (mem_senderrorTaxonomy.mpr ⟨sender, empty, rfl⟩) rfl
  · intro agree entry mem own
    obtain ⟨other, _, rfl⟩ := mem_senderrorTaxonomy.mp mem
    have same : other = sender := own
    rw [same]
    exact agree

/-- A send error without a status whose text names a failed connection. -/
def sampleRefused : TriggerRecord :=
  { sampleRow 1 "A" 1 .sendError with sendError := some "connection refused" }

/-- The error has the reason without a column, and the columns do not sum to the total. -/
theorem taxonomiesAgree_refused :
    ∃ df, loadEnriched [sampleRefused] sampleJson = some df ∧
      senderrorTaxonomy df = [⟨"A", none, 1, 0, 0, 0, ""⟩] ∧ ¬TaxonomiesAgree df "A" := by
  obtain ⟨df, loaded, rows⟩ := @loadEnriched_rows [sampleRefused] [sampleRefused] sampleJson
    (by decide +kernel)
  have table : senderrorTaxonomy df = [⟨"A", none, 1, 0, 0, 0, ""⟩] := by
    rw [senderrorTaxonomy, rows]
    decide +kernel
  refine ⟨df, loaded, table, ?_⟩
  intro agree
  have sums := (agree _ (table ▸ List.mem_cons_self) rfl).1
  cases sums

end SenderAnalysis.FanoutAnalysis

import SenderAnalysis.EntryComparator.Report
import SenderAnalysis.Foundations.BatchedWriters

/-!
# From the records to the report

The writer of the comparator collects the rows of the records in batches and hands them to
the library that writes the file and cuts its row groups; the report reads the rows back in
batches of its own. Neither matters: the report of a file that was closed, and that holds the
rows of the batches, counts the records the writer received (`report_counts_records`). A row
is handed to the library within the flush interval (`batches_timely`), which may keep it for
longer.
-/

set_option autoImplicit false

namespace SenderAnalysis.EntryComparator

namespace Writer

structure Config where
  rowGroupSize : Nat
  flushInterval : Duration

/-- The loop of the writer. -/
def runLoop (cfg : Config) : BatchedWriter DiffRecord Row where
  row := append
  limit := cfg.rowGroupSize
  interval := cfg.flushInterval

/-- The records that reach the writer before the correlator is gone. -/
def records (inputs : List (BatchedWriter.Input DiffRecord)) : List DiffRecord :=
  (BatchedWriter.received inputs).map Prod.fst

/-- A writer that has closed has handed on the rows of all records, in order. -/
theorem written_rows (cfg : Config) (startedAt : Instant)
    {inputs : List (BatchedWriter.Input DiffRecord)}
    (closed : inputs.any BatchedWriter.Input.isDisconnect = true) :
    ((runLoop cfg).run startedAt inputs).2.flatten = (records inputs).map append := by
  have ordered := ((runLoop cfg).run_ordered startedAt inputs).rows
  have ends := (runLoop cfg).run_closed startedAt inputs
  rw [ends.2 (ends.1.trans closed), List.append_nil] at ordered
  rw [ordered, records, List.map_map]
  rfl

/-- **At every moment, the batches handed on and the rows held are the rows of the records
received, in order; no batch is empty or too long; and no row has been held for longer than
the flush interval**, as of the last time the clock was read. -/
theorem batches_timely (cfg : Config) (startedAt : Instant)
    (inputs : List (BatchedWriter.Input DiffRecord))
    (steady : BatchedWriter.Steady startedAt inputs) :
    ∃ held, held <:+ BatchedWriter.received inputs ∧
      ((runLoop cfg).run startedAt inputs).2.flatten ++ held.map (fun rec => append rec.1) =
        (records inputs).map append ∧
      (∀ batch ∈ ((runLoop cfg).run startedAt inputs).2,
        0 < batch.length ∧ batch.length ≤ max 1 cfg.rowGroupSize) ∧
      ∀ rec ∈ held, BatchedWriter.clock startedAt inputs ≤ rec.2 + cfg.flushInterval := by
  obtain ⟨rows, sizes, _⟩ := (runLoop cfg).run_ordered startedAt inputs
  obtain ⟨held, suffix, buffered, fresh⟩ := (runLoop cfg).run_fresh startedAt steady
  refine ⟨held, suffix, ?_, sizes, fresh⟩
  change held.map (fun rec => append rec.1) = _ at buffered
  rw [buffered, rows, records, List.map_map]
  rfl

end Writer

namespace Report

/-! ## What the report should say -/

/-- The pairs of times of the records of both sources. -/
def pairs (ssNs : DiffRecord → Option Nat) (records : List DiffRecord) : List (Nat × Nat) :=
  records.filterMap fun rec =>
    if rec.source = .both then
      rec.ysObservedNs.bind fun ys => (ssNs rec).map fun ss => (ss, ys)
    else none

/-- The differences of pairs of times, by sign. -/
def signedHistOf (times : List (Nat × Nat)) : SignedHist where
  earlierCount := times.countP fun time => time.1 < time.2
  laterCount := times.countP fun time => time.2 < time.1
  equalCount := times.countP fun time => time.1 = time.2
  earlierAbs := (times.filter fun time => time.1 < time.2).map fun time => time.2 - time.1
  later := (times.filter fun time => time.2 < time.1).map fun time => time.1 - time.2

/-- The counts of records, read off them one by one. -/
def countsOf (records : List DiffRecord) : Counts where
  total := records.length
  both := records.countP fun rec => rec.source = .both
  ysOnly := records.countP fun rec => rec.source = .ysOnly
  ssOnly := records.countP fun rec => rec.source = .ssOnly
  hashMismatches := records.countP fun rec => rec.source = .both ∧ rec.hashMatch = false
  sigMismatches := records.countP fun rec => rec.source = .both ∧ rec.sigSetMatch = some false
  hFirst := signedHistOf (pairs DiffRecord.ssFirstShredNs records)
  hFec := signedHistOf (pairs DiffRecord.ssFecCompleteNs records)
  hDecode := (records.filter fun rec => rec.source = .both).flatMap fun rec =>
    decodeSample rec.ssFirstShredNs rec.ssFecCompleteNs
  decodeSamples := ((records.filter fun rec => rec.source = .both).flatMap fun rec =>
    decodeSample rec.ssFirstShredNs rec.ssFecCompleteNs).length

theorem signedHistOf_concat (times : List (Nat × Nat)) (ss ys : Nat) :
    signedHistOf (times ++ [(ss, ys)]) = (signedHistOf times).record ss ys := by
  unfold signedHistOf SignedHist.record
  rcases Nat.lt_trichotomy ss ys with earlier | same | later
  · have notLater : ¬ ys < ss := Nat.lt_asymm earlier
    have notSame : ¬ ss = ys := Nat.ne_of_lt earlier
    simp [earlier, notLater, notSame]
  · subst same
    simp
  · have notEarlier : ¬ ss < ys := Nat.lt_asymm later
    have notSame : ¬ ss = ys := Nat.ne_of_gt later
    simp [later, notEarlier, notSame]

theorem signedHistOf_pairs_concat (ssNs : DiffRecord → Option Nat) (records : List DiffRecord)
    {rec : DiffRecord} (both : rec.source = .both) :
    signedHistOf (pairs ssNs (records ++ [rec])) =
      (signedHistOf (pairs ssNs records)).compare rec.ysObservedNs (ssNs rec) := by
  unfold pairs
  rw [List.filterMap_append]
  cases ys : rec.ysObservedNs with
  | none => simp [both, ys, SignedHist.compare]
  | some ys' =>
    cases ss : ssNs rec with
    | none => simp [both, ys, ss, SignedHist.compare]
    | some ss' =>
      simp only [SignedHist.compare, ← signedHistOf_concat]
      simp [both, ys, ss]

/-- One more row is counted as one more record. -/
theorem countRow_append (records : List DiffRecord) (rec : DiffRecord) :
    countRow (countsOf records) (Writer.append rec) =
      { countsOf (records ++ [rec]) with total := records.length } := by
  have name : (Writer.append rec).source = rec.source.asStr := rfl
  cases kind : rec.source with
  | both =>
    have hist := fun ssNs => signedHistOf_pairs_concat ssNs records kind
    have both : (Writer.append rec).source = "BOTH" := by rw [name, kind]; rfl
    unfold countRow
    rw [both]
    simp only [countsOf, hist]
    cases matches' : rec.hashMatch <;> cases sigs : rec.sigSetMatch <;>
      simp [kind, matches', sigs, Writer.append]
  | ysOnly =>
    have one : (Writer.append rec).source = "YS_ONLY" := by rw [name, kind]; rfl
    unfold countRow
    rw [one]
    simp [countsOf, kind, pairs]
  | ssOnly =>
    have one : (Writer.append rec).source = "SS_ONLY" := by rw [name, kind]; rfl
    unfold countRow
    rw [one]
    simp [countsOf, kind, pairs]

/-- The number of rows is not counted row by row. -/
theorem foldl_countRow_total (rows : List Row) (counts : Counts) (total : Nat) :
    rows.foldl countRow { counts with total } = { rows.foldl countRow counts with total } := by
  induction rows generalizing counts with
  | nil => rfl
  | cons row rows ih =>
    have first : countRow { counts with total } row = { countRow counts row with total } := by
      unfold countRow
      split <;> rfl
    rw [List.foldl_cons, List.foldl_cons, first, ih]

theorem foldl_countRow (records : List DiffRecord) :
    (records.map Writer.append).foldl countRow {} = { countsOf records with total := 0 } := by
  induction records using List.reverseRecOn with
  | nil => rfl
  | append_singleton records rec ih =>
    rw [List.map_append, List.foldl_append, ih]
    change countRow { countsOf records with total := 0 } (Writer.append rec) = _
    have last := foldl_countRow_total [Writer.append rec] (countsOf records) 0
    rw [List.foldl_cons, List.foldl_nil, List.foldl_cons, List.foldl_nil, countRow_append] at last
    exact last

/-- How the rows are split into batches does not matter. -/
theorem generate_flatten (batches : List (List Row)) :
    generate batches =
      { batches.flatten.foldl countRow {} with total := batches.flatten.length } := by
  suffices split : ∀ counts : Counts, batches.foldl countBatch counts =
      { batches.flatten.foldl countRow counts with
        total := counts.total + batches.flatten.length } by
    have whole := split {}
    rwa [Nat.zero_add] at whole
  induction batches with
  | nil => exact fun _ => rfl
  | cons batch rest ih =>
    intro counts
    have own : countBatch counts batch =
        { batch.foldl countRow counts with total := counts.total + batch.length } :=
      foldl_countRow_total batch counts _
    have more := foldl_countRow_total rest.flatten (batch.foldl countRow counts)
      (counts.total + batch.length)
    rw [List.foldl_cons, ih, own, more, List.flatten_cons, List.foldl_append, List.length_append,
      Nat.add_assoc]

/-- **The report of a closed file counts the records the writer received**, however the
writer and the reader split the rows into batches; and every row is of one of three kinds.
The reader reads the rows that were handed on. -/
theorem report_counts_records (cfg : Writer.Config) (startedAt : Instant)
    (inputs : List (BatchedWriter.Input DiffRecord))
    (closed : inputs.any BatchedWriter.Input.isDisconnect = true) (batches : List (List Row))
    (same : batches.flatten = ((Writer.runLoop cfg).run startedAt inputs).2.flatten) :
    generate batches = countsOf (Writer.records inputs) ∧
      (generate batches).total =
        (generate batches).both + (generate batches).ysOnly + (generate batches).ssOnly := by
  have counts : generate batches = countsOf (Writer.records inputs) := by
    rw [generate_flatten, same, Writer.written_rows cfg startedAt closed, foldl_countRow,
      List.length_map]
    rfl
  refine ⟨counts, ?_⟩
  rw [counts]
  change (Writer.records inputs).length = _
  induction Writer.records inputs with
  | nil => rfl
  | cons rec rest ih =>
    cases kind : rec.source <;> simp [countsOf, kind] at ih ⊢ <;> omega

def sampleRecord (source : Source) (ys first complete : Option Nat) : DiffRecord where
  slot := 1
  entryIndex := 0
  numHashes := 100
  source := source
  ysObservedNs := ys
  ssFirstShredNs := first
  ssFecCompleteNs := complete
  ysHash := none
  ssHash := none
  ysTxCount := none
  ssTxCount := none
  hashMatch := true
  sigSetMatch := none
  leaderPubkey := none
  ysSignatures := []
  ssSignatures := []

/-- Two records in a full batch, one that is flushed at the end. -/
def sampleInputs : List (BatchedWriter.Input DiffRecord) :=
  [.record (sampleRecord .both (some 1000) (some 900) (some 1100)) 1,
    .record (sampleRecord .ysOnly (some 5000) none none) 2,
    .record (sampleRecord .ssOnly none (some 6000) (some 6100)) 3, .disconnect]

theorem report_counts_records_sample :
    generate ((Writer.runLoop ⟨2, 50⟩).run 0 sampleInputs).2 =
        countsOf (Writer.records sampleInputs) ∧
      ((Writer.runLoop ⟨2, 50⟩).run 0 sampleInputs).2.length = 2 :=
  ⟨(report_counts_records ⟨2, 50⟩ 0 sampleInputs (by decide) _ rfl).1, by decide⟩

/-- Before the end, one batch is handed on and one row is held. -/
theorem batches_timely_sample :
    ∃ held, held <:+ BatchedWriter.received (sampleInputs.take 3) ∧
      ((Writer.runLoop ⟨2, 50⟩).run 0 (sampleInputs.take 3)).2.flatten ++
          held.map (fun rec => Writer.append rec.1) =
        (Writer.records (sampleInputs.take 3)).map Writer.append ∧
      (∀ batch ∈ ((Writer.runLoop ⟨2, 50⟩).run 0 (sampleInputs.take 3)).2,
        0 < batch.length ∧ batch.length ≤ 2) ∧
      ∀ rec ∈ held, BatchedWriter.clock 0 (sampleInputs.take 3) ≤ rec.2 + 50 :=
  Writer.batches_timely ⟨2, 50⟩ 0 (sampleInputs.take 3) (by decide)

end Report

end SenderAnalysis.EntryComparator

import SenderAnalysis.EntryComparator.Correlator.Model

/-!
# The report of the entry comparator

The writer stores the records as rows, in batches. The report reads the batches back and
counts: the rows of every kind, the mismatches among the rows of both sources, and how far
ShredStream was ahead of Yellowstone or behind it. A histogram is the list of the values
recorded in it.
-/

set_option autoImplicit false

namespace SenderAnalysis.EntryComparator

def Source.asStr : Source → String
  | both => "BOTH"
  | ysOnly => "YS_ONLY"
  | ssOnly => "SS_ONLY"

/-- A row of the table of records. -/
structure Row where
  slot : Nat
  entryIndex : UInt32
  numHashes : Nat
  source : String
  ysObservedNs : Option Nat
  ssFirstShredNs : Option Nat
  ssFecCompleteNs : Option Nat
  ysHash : Option Hash
  ssHash : Option Hash
  ysTxCount : Option UInt32
  ssTxCount : Option UInt32
  hashMatch : Bool
  sigSetMatch : Option Bool
  leaderPubkey : Option Pubkey
  ysSignatures : List Signature
  ssSignatures : List Signature
deriving DecidableEq, Repr

namespace Writer

/-- The row that the builders append for a record. -/
def append (rec : DiffRecord) : Row where
  slot := rec.slot
  entryIndex := rec.entryIndex
  numHashes := rec.numHashes
  source := rec.source.asStr
  ysObservedNs := rec.ysObservedNs
  ssFirstShredNs := rec.ssFirstShredNs
  ssFecCompleteNs := rec.ssFecCompleteNs
  ysHash := rec.ysHash
  ssHash := rec.ssHash
  ysTxCount := rec.ysTxCount
  ssTxCount := rec.ssTxCount
  hashMatch := rec.hashMatch
  sigSetMatch := rec.sigSetMatch
  leaderPubkey := rec.leaderPubkey
  ysSignatures := rec.ysSignatures
  ssSignatures := rec.ssSignatures

end Writer

namespace Report

/-- Differences of times, by sign. -/
structure SignedHist where
  earlierCount : Nat := 0
  laterCount : Nat := 0
  equalCount : Nat := 0
  earlierAbs : List Nat := []
  later : List Nat := []
deriving DecidableEq, Repr

def SignedHist.record (hist : SignedHist) (ssNs ysNs : Nat) : SignedHist :=
  if ssNs < ysNs then
    { hist with
      earlierCount := hist.earlierCount + 1
      earlierAbs := hist.earlierAbs ++ [ysNs - ssNs] }
  else if ysNs < ssNs then
    { hist with laterCount := hist.laterCount + 1, later := hist.later ++ [ssNs - ysNs] }
  else { hist with equalCount := hist.equalCount + 1 }

/-- What the report counts. -/
structure Counts where
  total : Nat := 0
  both : Nat := 0
  ysOnly : Nat := 0
  ssOnly : Nat := 0
  hashMismatches : Nat := 0
  sigMismatches : Nat := 0
  hFirst : SignedHist := {}
  hFec : SignedHist := {}
  hDecode : List Nat := []
  decodeSamples : Nat := 0
deriving DecidableEq, Repr

/-- Compare a time of ShredStream with the time of Yellowstone, where there are both. -/
def SignedHist.compare (hist : SignedHist) : Option Nat → Option Nat → SignedHist
  | some ys, some ss => hist.record ss ys
  | _, _ => hist

/-- The time from the first shred to the complete entry, where it is not negative. -/
def decodeSample : Option Nat → Option Nat → List Nat
  | some first, some complete => if first ≤ complete then [complete - first] else []
  | _, _ => []

def countRow (counts : Counts) (row : Row) : Counts :=
  match row.source with
  | "BOTH" =>
      { counts with
        both := counts.both + 1
        hashMismatches := counts.hashMismatches + if row.hashMatch then 0 else 1
        sigMismatches := counts.sigMismatches + if row.sigSetMatch = some false then 1 else 0
        hFirst := counts.hFirst.compare row.ysObservedNs row.ssFirstShredNs
        hFec := counts.hFec.compare row.ysObservedNs row.ssFecCompleteNs
        hDecode := counts.hDecode ++ decodeSample row.ssFirstShredNs row.ssFecCompleteNs
        decodeSamples := counts.decodeSamples +
          (decodeSample row.ssFirstShredNs row.ssFecCompleteNs).length }
  | "YS_ONLY" => { counts with ysOnly := counts.ysOnly + 1 }
  | "SS_ONLY" => { counts with ssOnly := counts.ssOnly + 1 }
  | _ => counts

def countBatch (counts : Counts) (batch : List Row) : Counts :=
  batch.foldl countRow { counts with total := counts.total + batch.length }

/-- The counts over all batches. -/
def generate (batches : List (List Row)) : Counts := batches.foldl countBatch {}

/-- The lines of the report that show the counts. -/
def countLines (counts : Counts) : List String :=
  [s!"- Total rows: {counts.total}",
    s!"- BOTH: {counts.both}",
    s!"- YS_ONLY: {counts.ysOnly}",
    s!"- SS_ONLY: {counts.ssOnly}",
    s!"- Hash mismatches (BOTH only): {counts.hashMismatches}",
    s!"- Signature-set mismatches (BOTH only): {counts.sigMismatches}"]

/-! ## What the mismatches count -/

/-- What no row adds to stays zero. -/
theorem generate_zero {count : Counts → Nat} {batches : List (List Row)}
    (total : ∀ counts rows, count { counts with total := rows } = count counts)
    (kept : ∀ counts, ∀ row ∈ batches.flatten, count (countRow counts row) = count counts) :
    count (generate batches) = count {} := by
  suffices same : ∀ counts, count (batches.foldl countBatch counts) = count counts from same {}
  induction batches with
  | nil => exact fun _ => rfl
  | cons batch rest ih =>
    have rows : ∀ counts, count (batch.foldl countRow counts) = count counts := by
      have own : ∀ counts, ∀ row ∈ batch, count (countRow counts row) = count counts :=
        fun counts row member => kept counts row (by simp [member])
      clear ih kept
      induction batch with
      | nil => exact fun _ => rfl
      | cons row more ih =>
        intro counts
        rw [List.foldl_cons,
          ih fun counts row member => own counts row (List.mem_cons_of_mem _ member),
          own counts row (List.mem_cons_self ..)]
    intro counts
    rw [List.foldl_cons, ih (fun counts row member => kept counts row (by simp [member])),
      countBatch, rows, total]

/-- The hash mismatches are zero when the rows of both sources say that the hashes match. -/
theorem hashMismatches_zero {batches : List (List Row)}
    (agree : ∀ row ∈ batches.flatten, row.source = "BOTH" → row.hashMatch = true) :
    (generate batches).hashMismatches = 0 := by
  refine @generate_zero Counts.hashMismatches batches (fun _ _ => rfl) fun counts row member => ?_
  unfold countRow
  split
  · next both => simp [agree row member both]
  all_goals rfl

/-- The signature mismatches are zero when no row compares signatures. -/
theorem sigMismatches_zero {batches : List (List Row)}
    (silent : ∀ row ∈ batches.flatten, row.sigSetMatch = none) :
    (generate batches).sigMismatches = 0 := by
  refine @generate_zero Counts.sigMismatches batches (fun _ _ => rfl) fun counts row member => ?_
  unfold countRow
  split
  · simp [silent row member]
  all_goals rfl

end Report

end SenderAnalysis.EntryComparator

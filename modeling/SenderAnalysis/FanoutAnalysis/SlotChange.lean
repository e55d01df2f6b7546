import SenderAnalysis.FanoutAnalysis.OutcomeClasses
import SenderAnalysis.Foundations.FallibleMaps
import SenderAnalysis.Foundations.Tallies

/-!
# Slot and leader changes

The landed rows of a sender are counted by what changed between the send and the landing:
nothing, the slot only, or the leader. The slot changed when the row was observed in a
later slot. The leader changed when the leaders of the two slots are not the same, and a
leader that the map does not have is not the same as any other, itself included. The rows
where only the slot changed are not counted; the changes of the leader are subtracted from
the changes of the slot.

There is a table when some row landed and every sender of a landed row is one of the
analysis (`slotChangePerSender_isSome_iff`). Its three counts for a sender sum to the landed
rows exactly when every row was observed, in its slot or later. Then none of them is negative
exactly when the rows observed in their own slot, when that has no leader, are not more than
the rows observed in a later slot of the same leader (`slotPartition_iff`).
-/

set_option autoImplicit false

namespace SenderAnalysis.FanoutAnalysis

namespace EnrichedRow

variable (row : EnrichedRow)

/-! ## Columns -/

def slotsBehind : Option Int :=
  row.raw.observedSlot.map fun slot : Nat => (slot : Int) - row.raw.slot

def sameSlot : Bool := row.land && row.slotsBehind = some 0

def landedNextSlot : Bool := row.land && row.slotsBehind.any fun slots => slots ≥ 1

/-- A missing leader is unequal to itself. -/
def landedNextLeader : Bool :=
  row.land && (row.observedLeaderIdentity.isNone || row.leaderIdentity.isNone ||
    row.observedLeaderIdentity ≠ row.leaderIdentity)

end EnrichedRow

/-! ## Counts -/

/-- The landed rows and how they are counted. -/
structure SlotTallies where
  nLanded : Nat
  sameSlot : Nat
  nextSlot : Nat
  nextSlotSameLeader : Int
  nextLeader : Nat
deriving DecidableEq, Repr

def slotTallies (landed : List EnrichedRow) : SlotTallies :=
  let nextSlot := landed.countP EnrichedRow.landedNextSlot
  let nextLeader := landed.countP EnrichedRow.landedNextLeader
  { nLanded := landed.length
    sameSlot := landed.countP EnrichedRow.sameSlot
    nextSlot
    nextSlotSameLeader := (nextSlot : Int) - nextLeader
    nextLeader }

def slotGate (n : Nat) : String :=
  if n ≥ 20 then "inferential" else if n ≥ 5 then "indicative" else "long_tail"

/-- The row of a sender. -/
structure SlotChangeRow where
  senderName : String
  pop : String
  protocolClass : Option String
  tallies : SlotTallies
  gate : String
deriving DecidableEq, Repr

/-- The landed rows of a frame. -/
def EnrichedFrame.landed (df : EnrichedFrame) : List EnrichedRow :=
  df.rows.filter EnrichedRow.land

/-- The landed rows of a sender. -/
def EnrichedFrame.landedOf (df : EnrichedFrame) (sender : String) : List EnrichedRow :=
  df.landed.filter fun row => row.raw.senderName = sender

/-- The row of a sender, unless it is not one of the analysis. -/
def slotChangeRow (df : EnrichedFrame) (sender : String) : Option SlotChangeRow :=
  (senderMeta.lookup sender).map fun known =>
    { senderName := sender
      pop := known.popLabel
      protocolClass := protocolOf sender
      tallies := slotTallies (df.landedOf sender)
      gate := slotGate (df.landedOf sender).length }

/-- The senders with landed rows. -/
def EnrichedFrame.landedSenders (df : EnrichedFrame) : List String :=
  (df.landed.map fun row => row.raw.senderName).dedup

/-- The table, unless a sender is not one of the analysis: a row for every sender with
landed rows, the largest numbers first. A table without rows has no column to sort by. -/
def slotChangePerSender (df : EnrichedFrame) : Option (List SlotChangeRow) :=
  if df.landedSenders.isEmpty then none
  else
    (df.landedSenders.mapM (slotChangeRow df)).map fun rows =>
      rows.insertionSort fun first second => second.tallies.nLanded ≤ first.tallies.nLanded

/-- The tallies of the landed rows of the whole frame. -/
def globalTallies (df : EnrichedFrame) : SlotTallies := slotTallies df.landed

/-! ## The partition -/

/-- The three counts sum to the landed rows, and none of them is negative. -/
def SlotPartition (tallies : SlotTallies) : Prop :=
  (tallies.sameSlot : Int) + tallies.nextSlotSameLeader + tallies.nextLeader = tallies.nLanded ∧
    0 ≤ tallies.nextSlotSameLeader

instance (tallies : SlotTallies) : Decidable (SlotPartition tallies) :=
  inferInstanceAs (Decidable (_ ∧ _))

/-- The row was observed, in its slot or in a later one. -/
def ObservedInTime (row : EnrichedRow) : Prop :=
  ∃ slot, row.raw.observedSlot = some slot ∧ row.raw.slot ≤ slot

/-- Some rows of a frame, all of them landed. -/
structure LandedRows (df : EnrichedFrame) (rows : List EnrichedRow) : Prop where
  inFrame : ∀ row ∈ rows, row ∈ df.rows
  landed : ∀ row ∈ rows, row.land = true

section Partition

variable {df : EnrichedFrame} {rows : List EnrichedRow} {row : EnrichedRow}

/-- A landed row is in its slot or in a later one when it was observed in time. -/
theorem observedInTime_iff (landed : row.land = true) :
    ObservedInTime row ↔ (row.sameSlot || row.landedNextSlot) = true := by
  unfold ObservedInTime EnrichedRow.sameSlot EnrichedRow.landedNextSlot EnrichedRow.slotsBehind
  rw [landed, Bool.true_and, Bool.true_and]
  cases row.raw.observedSlot with
  | none => simp
  | some slot =>
    rw [Option.map_some, Option.any_some, Bool.or_eq_true, decide_eq_true_eq, decide_eq_true_eq,
      Option.some.injEq]
    simp only [Option.some.injEq, exists_eq_left']
    omega

/-- No row is in its slot and in a later one. -/
theorem sameSlot_of_next (next : row.landedNextSlot = true) : row.sameSlot = false := by
  unfold EnrichedRow.sameSlot
  unfold EnrichedRow.landedNextSlot at next
  cases behind : row.slotsBehind with
  | none => simp
  | some slots =>
    have later : slots ≥ 1 := by simpa [behind] using And.right (Bool.and_eq_true_iff.mp next)
    have notZero : slots ≠ 0 := by omega
    simp [notZero]

/-- The rows in their slot and those in a later one are all rows when each was observed in
time. -/
theorem sum_slots_iff (landed : ∀ row ∈ rows, row.land = true) :
    rows.countP EnrichedRow.sameSlot + rows.countP EnrichedRow.landedNextSlot = rows.length ↔
      ∀ row ∈ rows, ObservedInTime row := by
  have disjoint : rows.countP EnrichedRow.sameSlot + rows.countP EnrichedRow.landedNextSlot =
      rows.countP fun row => row.sameSlot || row.landedNextSlot := by
    have split := countP_split (fun row => row.sameSlot || row.landedNextSlot)
      EnrichedRow.sameSlot rows
    have same : rows.countP (fun row => (row.sameSlot || row.landedNextSlot) && row.sameSlot) =
        rows.countP EnrichedRow.sameSlot :=
      List.countP_congr fun row _ => by cases row.sameSlot <;> simp
    have next : rows.countP (fun row => (row.sameSlot || row.landedNextSlot) && !row.sameSlot) =
        rows.countP EnrichedRow.landedNextSlot := by
      apply List.countP_congr
      intro row _
      cases later : row.landedNextSlot with
      | true => simp [sameSlot_of_next later]
      | false => cases row.sameSlot <;> simp
    rw [split, same, next]
  rw [disjoint, List.countP_eq_length]
  exact forall₂_congr fun row mem => (observedInTime_iff (landed row mem)).symm

/-- In the same slot the leaders differ when there is none. -/
theorem nextLeader_of_sameSlot (inFrame : row ∈ df.rows) (same : row.sameSlot = true) :
    row.landedNextLeader = row.leaderIdentity.isNone := by
  obtain ⟨raw, _, rfl⟩ := List.mem_map.mp inFrame
  obtain ⟨landed, behind⟩ := Bool.and_eq_true_iff.mp same
  have observed : raw.observedSlot = some raw.slot := by
    unfold EnrichedRow.slotsBehind at behind
    cases slot : raw.observedSlot with
    | none => simp [enrich, slot] at behind
    | some slot' =>
      have zero : (slot' : Int) - raw.slot = 0 := by simpa [enrich, slot] using behind
      congr 1
      omega
  unfold EnrichedRow.landedNextLeader
  rw [landed, Bool.true_and]
  simp only [enrich, observed, Option.bind_some]
  cases df.slotToId.get raw.slot <;> simp

/-- When all rows were observed in time, the changes of the leader do not exceed those of
the slot when the rows in a slot without a leader do not exceed the rows in a later slot of
the same leader. -/
theorem nextLeader_le_iff (rowsOf : LandedRows df rows)
    (inTime : ∀ row ∈ rows, ObservedInTime row) :
    rows.countP EnrichedRow.landedNextLeader ≤ rows.countP EnrichedRow.landedNextSlot ↔
      rows.countP (fun row => row.sameSlot && row.leaderIdentity.isNone) ≤
        rows.countP fun row => row.landedNextSlot && !row.landedNextLeader := by
  have leaders := countP_split EnrichedRow.landedNextLeader EnrichedRow.landedNextSlot rows
  have slots := countP_split EnrichedRow.landedNextSlot EnrichedRow.landedNextLeader rows
  have both : rows.countP (fun row => row.landedNextLeader && row.landedNextSlot) =
      rows.countP fun row => row.landedNextSlot && row.landedNextLeader :=
    List.countP_congr fun row _ => by rw [Bool.and_comm]
  have unmapped : rows.countP (fun row => row.landedNextLeader && !row.landedNextSlot) =
      rows.countP fun row => row.sameSlot && row.leaderIdentity.isNone := by
    apply List.countP_congr
    intro row mem
    cases later : row.landedNextSlot with
    | true => simp [sameSlot_of_next later]
    | false =>
      have same : row.sameSlot = true := by
        simpa [later] using (observedInTime_iff (rowsOf.landed row mem)).mp (inTime row mem)
      simp [same, nextLeader_of_sameSlot (rowsOf.inFrame row mem) same]
  omega

/-- Landed rows are partitioned when they were observed in time, and the rows in a slot
without a leader do not exceed the rows in a later slot of the same leader. -/
theorem slotTallies_partition_iff (rowsOf : LandedRows df rows) :
    SlotPartition (slotTallies rows) ↔ (∀ row ∈ rows, ObservedInTime row) ∧
      rows.countP (fun row => row.sameSlot && row.leaderIdentity.isNone) ≤
        rows.countP fun row => row.landedNextSlot && !row.landedNextLeader := by
  have sums : SlotPartition (slotTallies rows) ↔
      rows.countP EnrichedRow.sameSlot + rows.countP EnrichedRow.landedNextSlot = rows.length ∧
        rows.countP EnrichedRow.landedNextLeader ≤ rows.countP EnrichedRow.landedNextSlot := by
    simp only [SlotPartition, slotTallies]
    omega
  rw [sums, sum_slots_iff rowsOf.landed]
  exact and_congr_right fun inTime => nextLeader_le_iff rowsOf inTime

end Partition

theorem landedOf_landedRows (df : EnrichedFrame) (sender : String) :
    LandedRows df (df.landedOf sender) where
  inFrame _ mem := (List.mem_filter.mp (List.mem_filter.mp mem).1).1
  landed _ mem := (List.mem_filter.mp (List.mem_filter.mp mem).1).2

theorem landed_landedRows (df : EnrichedFrame) : LandedRows df df.landed where
  inFrame _ mem := (List.mem_filter.mp mem).1
  landed _ mem := (List.mem_filter.mp mem).2

theorem mem_landedSenders {df : EnrichedFrame} {sender : String} :
    sender ∈ df.landedSenders ↔ df.landedOf sender ≠ [] := by
  rw [EnrichedFrame.landedSenders, List.mem_dedup, List.mem_map, EnrichedFrame.landedOf, ne_eq,
    List.filter_eq_nil_iff]
  simp

/-- Every sender with landed rows is one of the analysis. -/
def KnownSenders (df : EnrichedFrame) : Prop :=
  ∀ row ∈ df.landed, (senderMeta.lookup row.raw.senderName).isSome

/-- A table has the rows of the senders with landed rows, and no others. -/
theorem mem_slotChangePerSender {df : EnrichedFrame} {table : List SlotChangeRow}
    (result : slotChangePerSender df = some table) {entry : SlotChangeRow} :
    entry ∈ table ↔ ∃ sender, df.landedOf sender ≠ [] ∧ slotChangeRow df sender = some entry := by
  unfold slotChangePerSender at result
  split at result
  · cases result
  · obtain ⟨rows, computed, rfl⟩ := Option.map_eq_some_iff.mp result
    rw [List.mem_insertionSort, mem_of_mapM_eq_some computed]
    simp only [mem_landedSenders]

/-- There is a table exactly when some row landed and the senders of the landed rows are
known. -/
theorem slotChangePerSender_isSome_iff {df : EnrichedFrame} :
    (slotChangePerSender df).isSome ↔ df.landed ≠ [] ∧ KnownSenders df := by
  have senders : df.landedSenders.isEmpty = true ↔ df.landed = [] := by
    rw [EnrichedFrame.landedSenders, List.isEmpty_iff, List.dedup_eq_nil, List.map_eq_nil_iff]
  have known : (∀ sender ∈ df.landedSenders, (slotChangeRow df sender).isSome) ↔
      KnownSenders df := by
    simp only [EnrichedFrame.landedSenders, slotChangeRow, Option.isSome_map, List.mem_dedup,
      List.forall_mem_map, KnownSenders]
  unfold slotChangePerSender
  by_cases empty : df.landed = []
  · rw [if_pos (senders.mpr empty)]
    simp [empty]
  · rw [if_neg (mt senders.mp empty), Option.isSome_map, isSome_mapM_iff, known]
    simp [empty]

/-- A row of the table has the tallies of its sender. -/
theorem slotChangeRow_tallies {df : EnrichedFrame} {sender : String} {entry : SlotChangeRow}
    (found : slotChangeRow df sender = some entry) :
    entry.senderName = sender ∧ entry.tallies = slotTallies (df.landedOf sender) := by
  obtain ⟨known, _, rfl⟩ := Option.map_eq_some_iff.mp found
  exact ⟨rfl, rfl⟩

/-- The table has a row of the sender, and its counts partition the landed rows. -/
def Partitioned (df : EnrichedFrame) (sender : String) : Prop :=
  ∃ table, slotChangePerSender df = some table ∧
    ∃ entry ∈ table, entry.senderName = sender ∧ SlotPartition entry.tallies

/-- The row of a sender with landed rows is there when the table is. -/
theorem partitioned_iff {df : EnrichedFrame} {sender : String}
    (landed : df.landedOf sender ≠ []) :
    Partitioned df sender ↔
      KnownSenders df ∧ SlotPartition (slotTallies (df.landedOf sender)) := by
  have someLanded : df.landed ≠ [] := by
    intro none'
    exact landed (by rw [EnrichedFrame.landedOf, none', List.filter_nil])
  constructor
  · rintro ⟨table, result, entry, mem, rfl, partition⟩
    have there : (slotChangePerSender df).isSome := by rw [result, Option.isSome_some]
    obtain ⟨sender, _, found⟩ := (mem_slotChangePerSender result).mp mem
    obtain ⟨rfl, tallies⟩ := slotChangeRow_tallies found
    exact ⟨(slotChangePerSender_isSome_iff.mp there).2, tallies ▸ partition⟩
  · rintro ⟨known, partition⟩
    obtain ⟨table, result⟩ := Option.isSome_iff_exists.mp
      (slotChangePerSender_isSome_iff.mpr ⟨someLanded, known⟩)
    obtain ⟨row, mem⟩ := List.exists_mem_of_ne_nil _ landed
    obtain ⟨inLanded, own⟩ := List.mem_filter.mp mem
    have isKnown := known row inLanded
    rw [of_decide_eq_true own] at isKnown
    obtain ⟨meta', found⟩ := Option.isSome_iff_exists.mp isKnown
    refine ⟨table, result, _, (mem_slotChangePerSender result).mpr
      ⟨sender, landed, Option.map_eq_some_iff.mpr ⟨meta', found, rfl⟩⟩, rfl, partition⟩

/-- **The table has a row of a sender with landed rows, and its three counts partition these
rows, exactly when the senders of all landed rows are known, each of the rows was observed,
in its slot or later, and the rows observed in their own slot, when it has no leader, are
not more than the rows observed in a later slot of the same leader.** -/
theorem slotPartition_iff (df : EnrichedFrame) (sender : String)
    (landed : df.landedOf sender ≠ []) :
    Partitioned df sender ↔
      KnownSenders df ∧ (∀ row ∈ df.landedOf sender, ObservedInTime row) ∧
        (df.landedOf sender).countP (fun row => row.sameSlot && row.leaderIdentity.isNone) ≤
          (df.landedOf sender).countP fun row => row.landedNextSlot && !row.landedNextLeader := by
  rw [partitioned_iff landed, slotTallies_partition_iff (landedOf_landedRows df sender)]

/-- A landing in the slot it was fired in, and one in the next slot of its leader. -/
def sampleOnTime : Frame :=
  [{ sampleRow 1 "helius-fra" 1 .landed with observedSlot := some 100 },
    { sampleRow 2 "helius-fra" 2 .landed with observedSlot := some 101 }]

theorem slotPartition_onTime :
    ∃ df, loadEnriched sampleOnTime sampleJson = some df ∧ Partitioned df "helius-fra" := by
  obtain ⟨df, loaded, rows⟩ := @loadEnriched_rows sampleOnTime sampleOnTime sampleJson
    (by decide +kernel)
  refine ⟨df, loaded, (slotPartition_iff df "helius-fra" ?_).mpr ⟨?_, ?_, ?_⟩⟩
  · rw [EnrichedFrame.landedOf, EnrichedFrame.landed, rows]
    decide +kernel
  · rw [KnownSenders, EnrichedFrame.landed, rows]
    decide +kernel
  · intro row mem
    rw [observedInTime_iff ((landedOf_landedRows df _).landed row mem)]
    revert row mem
    rw [EnrichedFrame.landedOf, EnrichedFrame.landed, rows]
    decide +kernel
  · rw [EnrichedFrame.landedOf, EnrichedFrame.landed, rows]
    decide +kernel

/-- The partition of the tallies of the whole frame. -/
theorem globalTallies_partition_iff (df : EnrichedFrame) :
    SlotPartition (globalTallies df) ↔
      (∀ row ∈ df.landed, ObservedInTime row) ∧
        df.landed.countP (fun row => row.sameSlot && row.leaderIdentity.isNone) ≤
          df.landed.countP fun row => row.landedNextSlot && !row.landedNextLeader :=
  slotTallies_partition_iff (landed_landedRows df)

/-- A landing in the slot it was fired in, which has no leader in the sample epoch. -/
def sampleUnmapped : TriggerRecord :=
  { sampleRow 1 "helius-fra" 1 .landed with slot := 500, observedSlot := some 500 }

/-- A landing in the slot before the one it was fired in. -/
def sampleEarly : TriggerRecord :=
  { sampleRow 1 "helius-fra" 1 .landed with slot := 101, observedSlot := some 100 }

/-- A landing of a sender that is not one of the analysis. -/
def sampleUnknown : TriggerRecord :=
  { sampleRow 1 "other" 1 .landed with observedSlot := some 100 }

/-- A frame of one landed row with these tallies has no table in which they partition. -/
theorem not_partitioned {df : EnrichedFrame} {sender : String} {tallies : SlotTallies}
    (same : slotTallies (df.landedOf sender) = tallies) (some' : tallies.nLanded ≠ 0)
    (none' : ¬SlotPartition tallies) : ¬Partitioned df sender := by
  have landed : df.landedOf sender ≠ [] := by
    rintro empty
    rw [empty] at same
    exact some' (same ▸ rfl)
  intro partitioned
  exact none' (same ▸ ((partitioned_iff landed).mp partitioned).2)

/-- The first is counted as a change of the leader, which makes a count negative. The second
is not counted at all. With the third there is no table. -/
theorem slotPartition_unmapped :
    (∃ df, loadEnriched [sampleUnmapped] sampleJson = some df ∧
      (slotChangePerSender df).map (List.map SlotChangeRow.tallies) = some [⟨1, 1, 0, -1, 1⟩] ∧
      ¬Partitioned df "helius-fra") ∧
    (∃ df, loadEnriched [sampleEarly] sampleJson = some df ∧
      (slotChangePerSender df).map (List.map SlotChangeRow.tallies) = some [⟨1, 0, 0, 0, 0⟩] ∧
      ¬Partitioned df "helius-fra") ∧
    ∃ df, loadEnriched [sampleUnknown] sampleJson = some df ∧ slotChangePerSender df = none := by
  refine ⟨?_, ?_, ?_⟩
  · obtain ⟨df, loaded, rows⟩ := @loadEnriched_rows [sampleUnmapped] [sampleUnmapped] sampleJson
      (by decide +kernel)
    have tallies : slotTallies (df.landedOf "helius-fra") = ⟨1, 1, 0, -1, 1⟩ := by
      rw [EnrichedFrame.landedOf, EnrichedFrame.landed, rows]
      decide +kernel
    refine ⟨df, loaded, ?_, not_partitioned tallies (by decide) (by decide)⟩
    unfold slotChangePerSender slotChangeRow EnrichedFrame.landedSenders EnrichedFrame.landedOf
      EnrichedFrame.landed
    rw [rows]
    decide +kernel
  · obtain ⟨df, loaded, rows⟩ := @loadEnriched_rows [sampleEarly] [sampleEarly] sampleJson
      (by decide +kernel)
    have tallies : slotTallies (df.landedOf "helius-fra") = ⟨1, 0, 0, 0, 0⟩ := by
      rw [EnrichedFrame.landedOf, EnrichedFrame.landed, rows]
      decide +kernel
    refine ⟨df, loaded, ?_, not_partitioned tallies (by decide) (by decide)⟩
    unfold slotChangePerSender slotChangeRow EnrichedFrame.landedSenders EnrichedFrame.landedOf
      EnrichedFrame.landed
    rw [rows]
    decide +kernel
  · obtain ⟨df, loaded, rows⟩ := @loadEnriched_rows [sampleUnknown] [sampleUnknown] sampleJson
      (by decide +kernel)
    refine ⟨df, loaded, ?_⟩
    unfold slotChangePerSender slotChangeRow EnrichedFrame.landedSenders EnrichedFrame.landedOf
      EnrichedFrame.landed
    rw [rows]
    decide +kernel

end SenderAnalysis.FanoutAnalysis

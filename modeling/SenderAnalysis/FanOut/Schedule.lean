import SenderAnalysis.FanOut.Preparer
import SenderAnalysis.Foundations.RejectionSampling
import Mathlib.Algebra.Ring.Nat
import Mathlib.Data.List.Infix

/-!
# The schedule of triggers

The schedule names, chunk by chunk, the ticks of the coming slots to fire on. Every chunk
starts at the slot cursor and moves it behind the chunk. For each of its slots, ticks are
drawn until there are enough distinct ones. A drawing loop ends only when the draws let
it, so a chunk may have no result; what is proved is about the runs whose loops end.

The generator is its draws to come. Slots are 64-bit numbers.

Chunks one after the other cover consecutive slots (`chunks_covers`), each of them with
as many distinct ticks as a slot is to have, at least one and at most 64
(`chunks_entries`).
-/

set_option autoImplicit false

namespace SenderAnalysis

structure Schedule where
  /-- The draws to come. -/
  rng : List Nat
  nextSlot : Nat
  chunkSize : Nat
  triggersPerSlot : Nat
deriving DecidableEq, Repr

namespace Schedule

/-- A schedule for the slots from a first one on. -/
def new (rng : List Nat) (startSlot chunkSize triggersPerSlot : Nat) : Schedule where
  rng := rng
  nextSlot := startSlot
  chunkSize := max chunkSize 1
  triggersPerSlot := max triggersPerSlot 1

/-- Draw the ticks of one slot. -/
def pickTicks (triggersPerSlot : Nat) (rng : List Nat) : Option (List Nat × List Nat) :=
  rejectionSample (fun picked => picked < triggersPerSlot && picked < 64) [] rng

/-- Add the entries of one slot to those of the chunk. -/
def fillSlot (schedule : Schedule) (chunk : List Nat × List ScheduleEntry) (offset : Nat) :
    Option (List Nat × List ScheduleEntry) :=
  let slot := (schedule.nextSlot + offset) % 2 ^ 64
  (pickTicks schedule.triggersPerSlot chunk.1).map fun (picked, rng) =>
    (rng, chunk.2 ++ picked.map fun tick => ⟨slot, tick⟩)

/-- Generate the next chunk of schedule entries. -/
def nextChunk (schedule : Schedule) : Option (Schedule × List ScheduleEntry) :=
  ((List.range schedule.chunkSize).foldlM schedule.fillSlot (schedule.rng, [])).map
    fun (rng, out) =>
      ({ schedule with
          rng
          nextSlot := min (schedule.nextSlot + schedule.chunkSize) (2 ^ 64 - 1) }, out)

/-- The entries of a number of chunks, one chunk after the other. -/
def chunks : Nat → Schedule → Option (Schedule × List ScheduleEntry)
  | 0, schedule => some (schedule, [])
  | calls + 1, schedule =>
      schedule.nextChunk.bind fun (schedule, chunk) =>
        (chunks calls schedule).map fun (schedule, out) => (schedule, chunk ++ out)

end Schedule

/-! ## The ticks of a slot -/

/-- The ticks of one slot: distinct, in range, as many as a slot is to have. -/
structure SlotTicks (triggersPerSlot : Nat) where
  ticks : List Nat
  nodup : ticks.Nodup
  inRange : ∀ tick ∈ ticks, 1 ≤ tick ∧ tick ≤ 64
  length_eq : ticks.length = min triggersPerSlot 64

namespace SlotTicks

variable {triggersPerSlot : Nat}

/-- The entries of one slot. -/
def entries (slot : Nat) (slotTicks : SlotTicks triggersPerSlot) : List ScheduleEntry :=
  slotTicks.ticks.map fun tick => ⟨slot, tick⟩

/-- The entries of consecutive slots. -/
def entriesFrom : Nat → List (SlotTicks triggersPerSlot) → List ScheduleEntry
  | _, [] => []
  | slot, slotTicks :: slots => slotTicks.entries slot ++ entriesFrom (slot + 1) slots

@[simp] theorem entriesFrom_nil (slot : Nat) :
    entriesFrom slot ([] : List (SlotTicks triggersPerSlot)) = [] := rfl

theorem entriesFrom_append (slot : Nat) (first second : List (SlotTicks triggersPerSlot)) :
    entriesFrom slot (first ++ second) =
      entriesFrom slot first ++ entriesFrom (slot + first.length) second := by
  induction first generalizing slot with
  | nil => rfl
  | cons slotTicks first ih =>
    rw [List.cons_append, entriesFrom, entriesFrom, ih, List.append_assoc, List.length_cons,
      Nat.add_assoc, Nat.add_comm 1]

theorem slot_of_mem_entries {slot : Nat} {slotTicks : SlotTicks triggersPerSlot}
    {entry : ScheduleEntry} (mem : entry ∈ slotTicks.entries slot) : entry.slot = slot := by
  obtain ⟨tick, _, rfl⟩ := List.mem_map.mp mem
  rfl

/-- The entries of one slot are distinct. -/
theorem entries_nodup (slot : Nat) (slotTicks : SlotTicks triggersPerSlot) :
    (slotTicks.entries slot).Nodup :=
  slotTicks.nodup.map fun _ _ same => congrArg ScheduleEntry.tick same

/-- The entries of consecutive slots are for these slots. -/
theorem slot_of_mem_entriesFrom {slots : List (SlotTicks triggersPerSlot)} :
    ∀ {slot : Nat} {entry : ScheduleEntry}, entry ∈ entriesFrom slot slots →
      slot ≤ entry.slot ∧ entry.slot < slot + slots.length := by
  induction slots with
  | nil =>
    intro slot entry mem
    exact absurd mem List.not_mem_nil
  | cons slotTicks slots ih =>
    intro slot entry mem
    rw [List.length_cons]
    rcases List.mem_append.mp mem with here | later
    · rw [slot_of_mem_entries here]
      omega
    · have bounds := ih later
      omega

/-- Slots do not decrease along the entries. -/
theorem entriesFrom_sorted {slots : List (SlotTicks triggersPerSlot)} :
    ∀ slot : Nat, (entriesFrom slot slots).Pairwise fun first second =>
      first.slot ≤ second.slot := by
  induction slots with
  | nil => exact fun _ => List.Pairwise.nil
  | cons slotTicks slots ih =>
    intro slot
    refine List.pairwise_append.mpr ⟨?_, ih (slot + 1), ?_⟩
    · apply List.pairwise_of_forall_mem_list
      intro first inFirst second inSecond
      rw [slot_of_mem_entries inFirst, slot_of_mem_entries inSecond]
    · intro first inFirst second inSecond
      have bounds := slot_of_mem_entriesFrom inSecond
      rw [slot_of_mem_entries inFirst]
      omega

/-- No entry is there twice. -/
theorem entriesFrom_nodup {slots : List (SlotTicks triggersPerSlot)} :
    ∀ slot : Nat, (entriesFrom slot slots).Nodup := by
  induction slots with
  | nil => exact fun _ => List.nodup_nil
  | cons slotTicks slots ih =>
    intro slot
    refine List.nodup_append.mpr ⟨slotTicks.entries_nodup slot, ih (slot + 1), ?_⟩
    intro first inFirst second inSecond same
    have bounds := slot_of_mem_entriesFrom inSecond
    rw [← same, slot_of_mem_entries inFirst] at bounds
    omega

/-- The entries for one of the slots are the entries of its ticks. -/
theorem filter_entriesFrom {slots : List (SlotTicks triggersPerSlot)} :
    ∀ {first slot : Nat}, first ≤ slot → slot < first + slots.length →
      ∃ slotTicks : SlotTicks triggersPerSlot,
        (entriesFrom first slots).filter (fun entry => entry.slot = slot) =
          slotTicks.entries slot := by
  induction slots with
  | nil =>
    intro first slot low high
    exact absurd high (Nat.not_lt.mpr low)
  | cons slotTicks slots ih =>
    intro first slot low high
    rw [List.length_cons] at high
    rw [entriesFrom, List.filter_append]
    by_cases here : slot = first
    · refine ⟨slotTicks, ?_⟩
      rw [List.filter_eq_self.mpr, List.filter_eq_nil_iff.mpr, List.append_nil, here]
      · intro entry mem
        have bounds := slot_of_mem_entriesFrom mem
        simp only [decide_eq_true_eq]
        omega
      · intro entry mem
        exact decide_eq_true ((slot_of_mem_entries mem).trans here.symm)
    · obtain ⟨found, eq⟩ := @ih (first + 1) slot (by omega) (by omega)
      refine ⟨found, ?_⟩
      rw [List.filter_eq_nil_iff.mpr, List.nil_append, eq]
      intro entry mem isHere
      exact here ((of_decide_eq_true isHere).symm.trans (slot_of_mem_entries mem))

end SlotTicks

namespace Schedule

/-! ## Chunks -/

/-- Ticks that are drawn in range are the ticks of a slot. -/
theorem pickTicks_spec {triggersPerSlot : Nat} {rng picked rest : List Nat}
    (inRange : ∀ tick ∈ rng, 1 ≤ tick ∧ tick ≤ 64)
    (ends : pickTicks triggersPerSlot rng = some (picked, rest)) :
    (∃ slotTicks : SlotTicks triggersPerSlot, slotTicks.ticks = picked) ∧ rest <:+ rng := by
  obtain ⟨nodup, drawn, enough, before⟩ := rejectionSample_spec ends
  have reached : ¬(picked.length < triggersPerSlot ∧ picked.length < 64) := by
    simpa using enough
  have length_eq : picked.length = min triggersPerSlot 64 := by
    rcases Nat.lt_or_ge (min triggersPerSlot 64) picked.length with less | least
    · have asked : min triggersPerSlot 64 < triggersPerSlot ∧ min triggersPerSlot 64 < 64 := by
        simpa using before _ less
      omega
    · omega
  exact ⟨⟨⟨picked, nodup, fun tick mem => inRange tick (drawn tick mem), length_eq⟩, rfl⟩,
    (rejectionSample_ends ends).2⟩

/-- The slots that are filled are those from the cursor on. -/
theorem foldlM_fillSlot {schedule : Schedule}
    (inRange : ∀ tick ∈ schedule.rng, 1 ≤ tick ∧ tick ≤ 64) :
    ∀ {count : Nat} {rng : List Nat} {out : List ScheduleEntry},
      schedule.nextSlot + count ≤ 2 ^ 64 →
      (List.range count).foldlM schedule.fillSlot (schedule.rng, []) = some (rng, out) →
      ∃ slots : List (SlotTicks schedule.triggersPerSlot), slots.length = count ∧
        out = SlotTicks.entriesFrom schedule.nextSlot slots ∧ rng <:+ schedule.rng := by
  intro count
  induction count with
  | zero =>
    intro rng out _ ends
    cases ends
    exact ⟨[], rfl, rfl, List.suffix_refl _⟩
  | succ count ih =>
    intro rng out fits ends
    rw [List.range_succ, List.foldlM_append] at ends
    obtain ⟨⟨rng', out'⟩, before, last⟩ := Option.bind_eq_some_iff.mp ends
    obtain ⟨slots, length_eq, rfl, suffix⟩ := ih (by omega) before
    rw [List.foldlM_cons] at last
    obtain ⟨chunk, filled, last⟩ := Option.bind_eq_some_iff.mp last
    cases last
    obtain ⟨⟨picked, rest⟩, picks, eq⟩ := Option.map_eq_some_iff.mp filled
    cases eq
    obtain ⟨⟨slotTicks, rfl⟩, suffix'⟩ :=
      pickTicks_spec (fun tick mem => inRange tick (suffix.subset mem)) picks
    refine ⟨slots ++ [slotTicks], ?_, ?_, suffix'.trans suffix⟩
    · rw [List.length_append, length_eq, List.length_singleton]
    · have slot_eq : (schedule.nextSlot + count) % 2 ^ 64 = schedule.nextSlot + slots.length := by
        rw [length_eq]
        exact Nat.mod_eq_of_lt (by omega)
      rw [SlotTicks.entriesFrom_append, slot_eq]
      exact congrArg _ (List.append_nil _).symm

/-- **A chunk fills the slots from the cursor on, and leaves the cursor behind them.** The
cursor stops at the last slot there is. -/
theorem nextChunk_spec {schedule next : Schedule} {out : List ScheduleEntry}
    (inRange : ∀ tick ∈ schedule.rng, 1 ≤ tick ∧ tick ≤ 64)
    (fits : schedule.nextSlot + schedule.chunkSize ≤ 2 ^ 64)
    (ends : schedule.nextChunk = some (next, out)) :
    (∃ slots : List (SlotTicks schedule.triggersPerSlot), slots.length = schedule.chunkSize ∧
        out = SlotTicks.entriesFrom schedule.nextSlot slots) ∧
      next.rng <:+ schedule.rng ∧
      next.nextSlot = min (schedule.nextSlot + schedule.chunkSize) (2 ^ 64 - 1) ∧
      next.chunkSize = schedule.chunkSize ∧ next.triggersPerSlot = schedule.triggersPerSlot := by
  obtain ⟨⟨rng, filled⟩, run, eq⟩ := Option.map_eq_some_iff.mp ends
  cases eq
  obtain ⟨slots, length_eq, out_eq, suffix⟩ := foldlM_fillSlot inRange fits run
  exact ⟨⟨slots, length_eq, out_eq⟩, suffix, rfl, rfl, rfl⟩

/-- **Chunks one after the other fill consecutive slots.** -/
theorem chunks_covers : ∀ {calls : Nat} {schedule final : Schedule} {out : List ScheduleEntry},
    (∀ tick ∈ schedule.rng, 1 ≤ tick ∧ tick ≤ 64) →
    schedule.nextSlot + calls * schedule.chunkSize ≤ 2 ^ 64 → 0 < schedule.chunkSize →
    schedule.chunks calls = some (final, out) →
    ∃ slots : List (SlotTicks schedule.triggersPerSlot),
      slots.length = calls * schedule.chunkSize ∧
        out = SlotTicks.entriesFrom schedule.nextSlot slots := by
  intro calls
  induction calls with
  | zero =>
    intro schedule final out _ _ _ ends
    cases ends
    exact ⟨[], (Nat.zero_mul _).symm, rfl⟩
  | succ calls ih =>
    intro schedule final out inRange fits pos ends
    obtain ⟨⟨next, chunk⟩, first, ends⟩ := Option.bind_eq_some_iff.mp ends
    obtain ⟨⟨last, out'⟩, others, eq⟩ := Option.map_eq_some_iff.mp ends
    cases eq
    rw [Nat.succ_mul] at fits
    obtain ⟨⟨slots, length_eq, rfl⟩, suffix, cursor, sameSize, sameTriggers⟩ :=
      nextChunk_spec inRange (by omega) first
    cases calls with
    | zero =>
      cases others
      refine ⟨slots, ?_, List.append_nil _⟩
      rw [length_eq, Nat.one_mul]
    | succ calls =>
      -- Another chunk follows, so the cursor has not reached the last slot there is.
      have cursor_eq : next.nextSlot = schedule.nextSlot + schedule.chunkSize := by
        rw [Nat.succ_mul] at fits
        omega
      obtain ⟨slots', length_eq', rfl⟩ := ih (fun tick mem => inRange tick (suffix.subset mem))
        (by rw [cursor_eq, sameSize]; omega) (sameSize ▸ pos) others
      rw [sameSize] at length_eq'
      rw [cursor_eq]
      clear ih others first cursor cursor_eq
      obtain ⟨rng, nextSlot, chunkSize, triggersPerSlot⟩ := next
      cases sameTriggers
      refine ⟨slots ++ slots', ?_, ?_⟩
      · rw [List.length_append, length_eq, length_eq', Nat.succ_mul (calls + 1)]
        omega
      · rw [SlotTicks.entriesFrom_append, length_eq]

/-- One chunk more. -/
theorem chunks_concat {calls : Nat} {schedule next final : Schedule}
    {out chunk : List ScheduleEntry} (first : schedule.chunks calls = some (next, out))
    (last : next.nextChunk = some (final, chunk)) :
    schedule.chunks (calls + 1) = some (final, out ++ chunk) := by
  induction calls generalizing schedule out with
  | zero =>
    cases first
    exact Option.bind_eq_some_iff.mpr ⟨_, last, by simp [chunks]⟩
  | succ calls ih =>
    obtain ⟨⟨second, head⟩, begins, ends⟩ := Option.bind_eq_some_iff.mp first
    obtain ⟨⟨third, rest⟩, others, eq⟩ := Option.map_eq_some_iff.mp ends
    cases eq
    refine Option.bind_eq_some_iff.mpr ⟨_, begins, Option.map_eq_some_iff.mpr ⟨_, ih others, ?_⟩⟩
    rw [List.append_assoc]

/-- The slots are filled the same way when more draws are to come. -/
theorem foldlM_fillSlot_append {schedule : Schedule} (later : List Nat) :
    ∀ {offsets : List Nat} {chunk : List Nat × List ScheduleEntry} {rng : List Nat}
      {out : List ScheduleEntry},
      offsets.foldlM schedule.fillSlot chunk = some (rng, out) →
      offsets.foldlM { schedule with rng := schedule.rng ++ later }.fillSlot
        (chunk.1 ++ later, chunk.2) = some (rng ++ later, out) := by
  intro offsets
  induction offsets with
  | nil =>
    intro chunk rng out ends
    cases ends
    rfl
  | cons offset offsets ih =>
    intro chunk rng out ends
    rw [List.foldlM_cons] at ends ⊢
    obtain ⟨next, filled, ends⟩ := Option.bind_eq_some_iff.mp ends
    obtain ⟨⟨picked, rest⟩, picks, eq⟩ := Option.map_eq_some_iff.mp filled
    cases eq
    have picks' : pickTicks schedule.triggersPerSlot (chunk.1 ++ later) =
        some (picked, rest ++ later) := rejectionSample_append later picks
    have filled' : { schedule with rng := schedule.rng ++ later }.fillSlot
        (chunk.1 ++ later, chunk.2) offset =
          some (rest ++ later, chunk.2 ++ picked.map fun tick =>
            ⟨(schedule.nextSlot + offset) % 2 ^ 64, tick⟩) :=
      Option.map_eq_some_iff.mpr ⟨_, picks', rfl⟩
    exact Option.bind_eq_some_iff.mpr ⟨_, filled', ih ends⟩

/-- **Only the draws that are made matter**: a run of chunks whose loops end is the same
when more draws are to come. -/
theorem chunks_append (later : List Nat) :
    ∀ {calls : Nat} {schedule final : Schedule} {out : List ScheduleEntry},
      schedule.chunks calls = some (final, out) →
      { schedule with rng := schedule.rng ++ later }.chunks calls =
        some ({ final with rng := final.rng ++ later }, out) := by
  intro calls
  induction calls with
  | zero =>
    intro schedule final out ends
    cases ends
    rfl
  | succ calls ih =>
    intro schedule final out ends
    obtain ⟨⟨next, chunk⟩, first, ends⟩ := Option.bind_eq_some_iff.mp ends
    obtain ⟨⟨last, out'⟩, others, eq⟩ := Option.map_eq_some_iff.mp ends
    cases eq
    obtain ⟨⟨rng, filled⟩, run, eq⟩ := Option.map_eq_some_iff.mp first
    cases eq
    refine Option.bind_eq_some_iff.mpr ⟨_, Option.map_eq_some_iff.mpr
      ⟨_, foldlM_fillSlot_append later run, rfl⟩, ?_⟩
    exact Option.map_eq_some_iff.mpr ⟨_, ih others, rfl⟩

/-- **The entries of any number of chunks are for the consecutive slots from the first one
on. Every one of these slots has its number of distinct ticks in range, slots do not
decrease along the entries, and no entry is there twice.** -/
theorem chunks_entries {rng : List Nat} {startSlot chunkSize triggersPerSlot calls : Nat}
    {final : Schedule} {out : List ScheduleEntry}
    (inRange : ∀ tick ∈ rng, 1 ≤ tick ∧ tick ≤ 64)
    (fits : startSlot + calls * max chunkSize 1 ≤ 2 ^ 64)
    (ends : (Schedule.new rng startSlot chunkSize triggersPerSlot).chunks calls =
      some (final, out)) :
    (∀ entry ∈ out, startSlot ≤ entry.slot ∧ entry.slot < startSlot + calls * max chunkSize 1) ∧
      (∀ slot, startSlot ≤ slot → slot < startSlot + calls * max chunkSize 1 →
        let ticks := (out.filter fun entry => entry.slot = slot).map ScheduleEntry.tick
        ticks.length = min (max triggersPerSlot 1) 64 ∧ ticks.Nodup ∧
          ∀ tick ∈ ticks, 1 ≤ tick ∧ tick ≤ 64) ∧
      (out.Pairwise fun first second => first.slot ≤ second.slot) ∧ out.Nodup := by
  have pos : 0 < max chunkSize 1 := Nat.le_max_right chunkSize 1
  obtain ⟨slots, length_eq, rfl⟩ :=
    @chunks_covers calls (Schedule.new rng startSlot chunkSize triggersPerSlot) final out
      inRange fits pos ends
  refine ⟨?_, ?_, SlotTicks.entriesFrom_sorted _, SlotTicks.entriesFrom_nodup _⟩
  · intro entry mem
    exact length_eq ▸ SlotTicks.slot_of_mem_entriesFrom mem
  · intro slot low high
    obtain ⟨slotTicks, filtered⟩ := SlotTicks.filter_entriesFrom low (length_eq ▸ high)
    have ticks_eq : (slotTicks.entries slot).map ScheduleEntry.tick = slotTicks.ticks := by
      rw [SlotTicks.entries, List.map_map]
      exact List.map_id _
    intro ticks
    have same : ticks = slotTicks.ticks :=
      (congrArg (List.map ScheduleEntry.tick) filtered).trans ticks_eq
    rw [same]
    exact ⟨slotTicks.length_eq, slotTicks.nodup, slotTicks.inRange⟩

/-- Two chunks of two slots with two ticks each, one draw rejected. -/
theorem chunks_entries_sample :
    ∃ final, (Schedule.new [7, 7, 9, 1, 2, 64, 1, 3, 4] 100 2 2).chunks 2 =
        some (final, [⟨100, 7⟩, ⟨100, 9⟩, ⟨101, 1⟩, ⟨101, 2⟩, ⟨102, 64⟩, ⟨102, 1⟩, ⟨103, 3⟩,
          ⟨103, 4⟩]) ∧
      [(⟨100, 7⟩ : ScheduleEntry), ⟨100, 9⟩, ⟨101, 1⟩, ⟨101, 2⟩, ⟨102, 64⟩, ⟨102, 1⟩, ⟨103, 3⟩,
        ⟨103, 4⟩].Nodup :=
  ⟨_, rfl, (@chunks_entries [7, 7, 9, 1, 2, 64, 1, 3, 4] 100 2 2 2 _ _ (by decide) (by decide)
    rfl).2.2.2⟩

end Schedule

end SenderAnalysis
